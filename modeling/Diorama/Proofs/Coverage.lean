import Diorama.Proofs.Characters
import Mathlib.Data.List.Induction

namespace Diorama

def Position.behind (line : Nat) (before : List UInt8) : Position :=
  ⟨line + before.count 0x0a, 1 + (before.reverse.takeWhile (· != 0x0a)).length⟩

theorem Position.after_eq_behind (line : Nat) (before : List UInt8) : after ⟨line, 1⟩ before = behind line before := by
  induction before using List.reverseRecOn with
  | nil => rfl
  | append_singleton bs b ih =>
    rw [after_append, ih]
    change (behind line bs).step b = _
    unfold step behind
    by_cases newline : b = 0x0a
    · simp [newline, Nat.add_assoc]
    · simp [newline, Nat.add_comm]

theorem Position.after_behind (line : Nat) (before more : List UInt8) :
    (behind line before).after more = behind line (before ++ more) := by
  rw [← after_eq_behind, ← after_append, after_eq_behind]

namespace Text

theorem encoded_blank {c : Char} (white : c ∈ blanks) : ∃ b, encoded [c] = [b] ∧ isBlankByte b = true := by
  simp only [blanks, List.mem_cons, List.not_mem_nil, or_false] at white
  rcases white with rfl | rfl | rfl | rfl | rfl <;> exact ⟨_, rfl, rfl⟩

theorem encoded_newline {rest : List Char} (ends : ∀ c ∈ rest.head?, c = '\n') : ∀ b ∈ (encoded rest).head?, b = 0x0a := by
  cases rest with
  | nil => nofun
  | cons c rest =>
    intro b first
    rw [ends c rfl] at first
    cases first
    rfl

end Text

namespace Token

open Text

structure Stretch where
  start : Nat
  stop : Nat
  deriving DecidableEq, Repr

def Stretch.of (r : Stretch) (bs : List UInt8) : List UInt8 := (bs.drop r.start).take (r.stop - r.start)

def Stretch.Holds (r : Stretch) (i : Nat) : Prop := r.start ≤ i ∧ i < r.stop

-- White space and comments, when `rest` follows. A comment is a number sign that makes no colour, together with
-- everything up to the newline or the end.
inductive Gap : List UInt8 → List UInt8 → Prop where
  | nil {rest : List UInt8} : Gap [] rest
  | blank {b : UInt8} {gap rest : List UInt8} : isBlankByte b = true → Gap gap rest → Gap (b :: gap) rest
  | comment {body gap rest : List UInt8} : isColour (body ++ (gap ++ rest)) = false → 0x0a ∉ body →
      (∀ b ∈ (gap ++ rest).head?, b = 0x0a) → Gap gap rest → Gap (0x23 :: body ++ gap) rest

-- A token can start behind `before`: there is only white space and comments since the last token or the start.
def Startable (all : List Stretch) (before after : List UInt8) : Prop :=
  ∃ passed gap, before = passed ++ gap ∧ (passed = [] ∨ ∃ r ∈ all, r.stop = passed.length) ∧ Gap gap after

structure Comment (bs : List UInt8) (all : List Stretch) (before body after : List UInt8) : Prop where
  whole : bs = before ++ 0x23 :: body ++ after
  start : Startable all before (0x23 :: body ++ after)
  colourless : isColour (body ++ after) = false
  unbroken : 0x0a ∉ body
  ends : ∀ b ∈ after.head?, b = 0x0a

def Commented (bs : List UInt8) (all : List Stretch) (i : Nat) : Prop :=
  ∃ before body after, Comment bs all before body after ∧ before.length ≤ i ∧ i ≤ before.length + body.length

structure Lies (line : Nat) (bs : List UInt8) (t : Token) (r : Stretch) : Prop where
  inside : r.start ≤ r.stop ∧ r.stop ≤ bs.length
  lexeme : Text.bytes t.lexeme = r.of bs
  place : t.position = .behind line (bs.take r.start)

structure Covers (line : Nat) (bs : List UInt8) (tokens : List Token) (all : List Stretch) : Prop where
  lies : List.Forall₂ (Lies line bs) tokens all
  apart : all.Pairwise fun r r' => r.start < r.stop ∧ r.stop ≤ r'.start
  covered : ∀ i b, bs[i]? = some b → (∃ r ∈ all, r.Holds i) ∨ isBlankByte b = true ∨ Commented bs all i
  finish : ∃ row last, tokens = row ++ [last] ∧ last.kind = .finish ∧ last.lexeme = "" ∧
    all.getLast? = some ⟨bs.length, bs.length⟩ ∧ ∀ t ∈ row, t.kind ≠ .finish

-- The tokens behind `before`, with the gap in front of each.
inductive Tiled (line : Nat) : List UInt8 → List UInt8 → List Token → List Stretch → Prop where
  | finish {before gap : List UInt8} : Gap gap [] →
      Tiled line before gap [⟨.finish, "", .behind line (before ++ gap)⟩] [⟨(before ++ gap).length, (before ++ gap).length⟩]
  | token {before gap rest : List UInt8} {kind : TokenKind} {lexeme : String} {tokens : List Token} {later : List Stretch} :
      Gap gap (Text.bytes lexeme ++ rest) → lexeme ≠ "" → kind ≠ .finish →
      Tiled line (before ++ gap ++ Text.bytes lexeme) rest tokens later →
      Tiled line before (gap ++ (Text.bytes lexeme ++ rest)) (⟨kind, lexeme, .behind line (before ++ gap)⟩ :: tokens)
        (⟨(before ++ gap).length, (before ++ gap ++ Text.bytes lexeme).length⟩ :: later)

section Tiling

variable {line : Nat} {bs before rest more : List UInt8} {tokens : List Token} {all later : List Stretch}

theorem Tiled.extend (tiled : Tiled line (before ++ more) rest tokens later)
    (joins : ∀ gap rest', rest = gap ++ rest' → Gap gap rest' → Gap (more ++ gap) rest') :
    Tiled line before (more ++ rest) tokens later := by
  cases tiled with
  | finish gap =>
    rw [List.append_assoc]
    exact .finish (joins rest [] (by simp) gap)
  | @token _ gap rest kind lexeme tokens later gapped filled inner tiled =>
    rw [List.append_assoc before more gap] at tiled ⊢
    rw [← List.append_assoc more]
    exact .token (joins gap _ rfl gapped) filled inner tiled

theorem Tiled.start_ge (tiled : Tiled line before rest tokens later) : ∀ r ∈ later, before.length ≤ r.start := by
  induction tiled with
  | finish =>
    intro r member
    rw [List.mem_singleton.mp member]
    simp
  | token _ _ _ _ ih =>
    intro r member
    rcases List.mem_cons.mp member with rfl | among
    · simp
    · have behind := ih r among
      rw [List.length_append, List.length_append] at behind
      omega

theorem Tiled.apart (tiled : Tiled line before rest tokens later) :
    later.Pairwise fun r r' => r.start < r.stop ∧ r.stop ≤ r'.start := by
  induction tiled with
  | finish => exact List.pairwise_singleton _ _
  | @token _ _ _ _ lexeme _ _ _ filled _ tiled ih =>
    refine List.pairwise_cons.mpr ⟨fun r member => ⟨?_, tiled.start_ge r member⟩, ih⟩
    have positive : 0 < (Text.bytes lexeme).length := List.length_pos_iff.mpr (bytes_ne_nil filled)
    simp only [List.length_append]
    omega

theorem lies_behind (line : Nat) (front rest : List UInt8) (kind : TokenKind) (lexeme : String) :
    Lies line (front ++ (Text.bytes lexeme ++ rest)) ⟨kind, lexeme, .behind line front⟩
      ⟨front.length, (front ++ Text.bytes lexeme).length⟩ := by
  constructor
  · simp only [List.length_append]
    omega
  · simp [Stretch.of]
  · simp

theorem Tiled.lies (tiled : Tiled line before rest tokens later) :
    List.Forall₂ (Lies line (before ++ rest)) tokens later := by
  induction tiled with
  | @finish before gap _ =>
    have last := lies_behind line (before ++ gap) [] .finish ""
    rw [show Text.bytes "" = [] from Text.bytes_eq ""] at last
    simp only [List.append_nil] at last
    exact .cons last .nil
  | @token before gap rest kind lexeme tokens later _ _ _ _ ih =>
    rw [← List.append_assoc]
    refine .cons (lies_behind line (before ++ gap) rest kind lexeme) ?_
    rw [← List.append_assoc]
    exact ih

theorem Tiled.finish_last (tiled : Tiled line before rest tokens later) : ∃ row last, tokens = row ++ [last] ∧
    last.kind = .finish ∧ last.lexeme = "" ∧ later.getLast? = some ⟨(before ++ rest).length, (before ++ rest).length⟩ ∧
    ∀ t ∈ row, t.kind ≠ .finish := by
  induction tiled with
  | finish => exact ⟨[], _, rfl, rfl, rfl, rfl, by simp⟩
  | @token before gap rest kind lexeme tokens later _ _ inner _ ih =>
    obtain ⟨row, last, rfl, finish, empty, stretch, others⟩ := ih
    refine ⟨⟨kind, lexeme, .behind line (before ++ gap)⟩ :: row, last, rfl, finish, empty, ?_, ?_⟩
    · rw [List.getLast?_cons, stretch]
      simp
    · exact List.forall_mem_cons.mpr ⟨inner, others⟩

theorem Gap.cases_at {gap : List UInt8} (gapped : Gap gap rest) {i : Nat} {b : UInt8} (found : gap[i]? = some b) :
    isBlankByte b = true ∨ ∃ front body back, gap = front ++ 0x23 :: body ++ back ∧
      Gap front (0x23 :: body ++ (back ++ rest)) ∧ isColour (body ++ (back ++ rest)) = false ∧ 0x0a ∉ body ∧
      (∀ b ∈ (back ++ rest).head?, b = 0x0a) ∧ front.length ≤ i ∧ i ≤ front.length + body.length := by
  induction gapped generalizing i with
  | nil => cases found
  | @blank b' gap rest white gapped ih =>
    cases i with
    | zero =>
      cases found
      exact .inl white
    | succ i =>
      rcases ih (by simpa using found) with plain | ⟨front, body, back, rfl, before, colourless, unbroken, ends, low, high⟩
      · exact .inl plain
      · refine .inr ⟨b' :: front, body, back, rfl, .blank white before, colourless, unbroken, ends, ?_, ?_⟩
        · simpa using low
        · rw [List.length_cons]
          omega
  | @comment body gap rest colourless unbroken ends gapped ih =>
    by_cases inside : i ≤ body.length
    · exact .inr ⟨[], body, gap, rfl, .nil, colourless, unbroken, ends, by simp, by simpa using inside⟩
    · have later : gap[i - (body.length + 1)]? = some b := by
        rw [List.getElem?_append_right (by rw [List.length_cons]; omega), List.length_cons] at found
        exact found
      rcases ih later with plain | ⟨front, body', back, rfl, before, colourless', unbroken', ends', low, high⟩
      · exact .inl plain
      · refine .inr ⟨0x23 :: body ++ front, body', back, by simp, ?_, colourless', unbroken', ends', ?_, ?_⟩
        · exact .comment (by simpa using colourless) unbroken (by simpa using ends) before
        · simp only [List.length_cons, List.length_append]
          omega
        · simp only [List.length_cons, List.length_append]
          omega

theorem Gap.covered {gap : List UInt8} (gapped : Gap gap rest)
    (started : before = [] ∨ ∃ r ∈ all, r.stop = before.length) {i : Nat} {b : UInt8} (behind : before.length ≤ i)
    (found : gap[i - before.length]? = some b) :
    isBlankByte b = true ∨ Commented (before ++ (gap ++ rest)) all i := by
  rcases gapped.cases_at found with white | ⟨front, body, back, rfl, opening, colourless, unbroken, ends, low, high⟩
  · exact .inl white
  · refine .inr ⟨before ++ front, body, back ++ rest, ⟨by simp, ?_, colourless, unbroken, ends⟩, ?_, ?_⟩
    · exact ⟨before, front, rfl, started, opening⟩
    · rw [List.length_append]
      omega
    · rw [List.length_append]
      omega

theorem Tiled.covered (tiled : Tiled line before rest tokens later) (among : later ⊆ all)
    (started : before = [] ∨ ∃ r ∈ all, r.stop = before.length) {i : Nat} {b : UInt8} (behind : before.length ≤ i)
    (found : (before ++ rest)[i]? = some b) :
    (∃ r ∈ all, r.Holds i) ∨ isBlankByte b = true ∨ Commented (before ++ rest) all i := by
  -- by induction on the tokens: a byte is in the first gap, in the first lexeme or further behind
  induction tiled with
  | @finish before gap gapped =>
    rw [List.getElem?_append_right behind] at found
    have filled := gapped.covered started behind found
    rw [List.append_nil] at filled
    exact .inr filled
  | @token before gap rest kind lexeme tokens later gapped _ _ _ ih =>
    obtain ⟨first, others⟩ := List.cons_subset.mp among
    by_cases gone : (before ++ gap ++ Text.bytes lexeme).length ≤ i
    · have same : before ++ (gap ++ (Text.bytes lexeme ++ rest)) = before ++ gap ++ Text.bytes lexeme ++ rest := by simp
      rw [same] at found ⊢
      exact ih others (.inr ⟨_, first, rfl⟩) gone found
    · by_cases reached : (before ++ gap).length ≤ i
      · exact .inl ⟨_, first, reached, Nat.lt_of_not_le gone⟩
      · refine .inr (gapped.covered started behind ?_)
        rw [List.getElem?_append_right behind, List.getElem?_append_left] at found
        · exact found
        · rw [List.length_append] at reached
          omega

theorem Tiled.covers (tiled : Tiled line [] bs tokens all) : Covers line bs tokens all where
  lies := tiled.lies
  apart := tiled.apart
  covered := fun _ _ found => tiled.covered (List.Subset.refl all) (.inl rfl) (Nat.zero_le _) found
  finish := tiled.finish_last

theorem Cut.outcome {taken rest : List Char} {found : Item} (cut : Cut rest taken found) :
    (∃ kind, kind ≠ .finish ∧ found = .token kind) ∨ (∃ cause, found = .mistake cause) ∨
    found = .comment ∧ ∃ body, taken = '#' :: body ∧ isColour (encoded (body ++ rest)) = false ∧ '\n' ∉ body ∧
      ∀ c ∈ rest.head?, c = '\n' := by
  cases cut with
  | string body => exact .inl ⟨_, TokenKind.noConfusion, rfl⟩
  | symbol name => exact .inl ⟨_, TokenKind.noConfusion, rfl⟩
  | openString body => exact .inr (.inl ⟨_, rfl⟩)
  | emptySymbol => exact .inr (.inl ⟨_, rfl⟩)
  | comment body colourless unbroken ends => exact .inr (.inr ⟨rfl, body, rfl, colourless, unbroken, ends⟩)
  | plain =>
    rcases ofChunk_cases taken with word | ⟨x, _, number⟩ | invalid
    · exact .inl ⟨_, TokenKind.noConfusion, word⟩
    · exact .inl ⟨_, TokenKind.noConfusion, number⟩
    · exact .inr (.inl ⟨_, invalid⟩)

theorem Scanned.tiled {p : Position} {cs : List Char} {row : List Entry} (scanned : Scanned p cs row) :
    ∀ before tokens, p = .behind line before → row = tokens.map .ok → ∃ later, Tiled line before (encoded cs) tokens later := by
  -- By induction on the scan. White space and a comment go into the gap before the next token.
  induction scanned with
  | finish =>
    intro before tokens here same
    obtain ⟨t, rfl, own⟩ := List.map_eq_singleton_iff.mp same.symm
    cases own
    have last : Tiled line before [] _ _ := .finish .nil
    rw [List.append_nil, ← here] at last
    exact ⟨_, last⟩
  | @blank p c cs row white _ ih =>
    intro before tokens here same
    obtain ⟨later, tiled⟩ := ih (before ++ encoded [c]) tokens (by rw [here, Position.after_behind]) same
    refine ⟨later, ?_⟩
    rw [← List.singleton_append, encoded_append]
    refine tiled.extend fun gap rest _ gapped => ?_
    obtain ⟨b, single, white⟩ := encoded_blank white
    rw [single]
    exact .blank white gapped
  | @item p taken rest found row filled cut _ ih =>
    intro before tokens here same
    have next : p.after (encoded taken) = .behind line (before ++ encoded taken) := by rw [here, Position.after_behind]
    rcases cut.outcome with ⟨kind, inner, rfl⟩ | ⟨cause, rfl⟩ | ⟨rfl, body, rfl, colourless, unbroken, ends⟩
    · obtain ⟨t, tokens, rfl, own, others⟩ := List.map_eq_cons_iff.mp same.symm
      cases own
      obtain ⟨later, tiled⟩ := ih _ tokens next others.symm
      have lexeme : Text.bytes (decode (encoded taken)) = encoded taken := by rw [decode_encoded, bytes_ofList]
      have nonempty : decode (encoded taken) ≠ "" := by
        rw [decode_encoded]
        exact fun empty => filled (String.ofList_eq_empty_iff.mp empty)
      have others : Tiled line (before ++ [] ++ Text.bytes (decode (encoded taken))) (encoded rest) tokens later := by
        rw [lexeme, List.append_nil]
        exact tiled
      have token := Tiled.token .nil nonempty inner others
      rw [lexeme, List.append_nil, ← here, List.nil_append, ← encoded_append] at token
      exact ⟨_, token⟩
    · obtain ⟨t, tokens, rfl, own, others⟩ := List.map_eq_cons_iff.mp same.symm
      cases own
    · obtain ⟨later, tiled⟩ := ih _ tokens next same
      refine ⟨later, ?_⟩
      rw [encoded_append]
      refine tiled.extend fun gap rest' split gapped => ?_
      change Gap (0x23 :: encoded body ++ gap) rest'
      refine .comment ?_ ?_ ?_ gapped
      · rw [← split, ← encoded_append]
        exact colourless
      · exact fun member => unbroken (mem_of_mem_encoded (by decide) member)
      · rw [← split]
        exact encoded_newline ends

end Tiling
end Token

theorem tokenize_covers (line : Nat) (text : String) :
    match tokenize line text with
    | .ok tokens => ∃ all, Token.Covers line (Text.bytes text) tokens all
    | .error mistakes => mistakes ≠ [] := by
  cases read : tokenize line text with
  | ok tokens =>
    have scanned := Token.entries_scanned (p := ⟨line, 1⟩) text.toList (Text.bytes_eq text).symm
    obtain ⟨all, tiled⟩ := scanned.tiled [] tokens rfl (scan_ok read).1
    rw [← Text.bytes_eq] at tiled
    exact ⟨all, tiled.covers⟩
  | error mistakes =>
    obtain ⟨first, rest, rfl, _⟩ := parseLine_mistakes read
    exact List.cons_ne_nil first rest

end Diorama
