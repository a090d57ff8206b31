import Diorama.Proofs.Spelling

namespace Diorama

namespace Text

variable {c : Char} {cs : List Char} {q : UInt8 → Bool}

theorem utf8EncodeChar_cases (c : Char) :
    (∃ b, String.utf8EncodeChar c = [b] ∧ c.toNat = b.toNat) ∨ ∀ b ∈ String.utf8EncodeChar c, ¬ b < 0x80 := by
  by_cases high : ∀ b ∈ String.utf8EncodeChar c, ¬ b < 0x80
  · exact .inr high
  · obtain ⟨b, member, small⟩ : ∃ b, b ∈ String.utf8EncodeChar c ∧ b < 0x80 := by simpa using high
    have same := ascii_of_mem small member
    have below : b.toNat < 128 := small
    have low : c.val.toNat ≤ 127 := by
      have : c.val.toNat = c.toNat := rfl
      omega
    refine .inl ⟨b, ?_, same⟩
    have single : ∃ b', String.utf8EncodeChar c = [b'] := by
      unfold String.utf8EncodeChar
      dsimp only
      rw [if_pos low]
      exact ⟨_, rfl⟩
    obtain ⟨b', single⟩ := single
    rw [single, List.mem_singleton] at member
    rw [single, member]

theorem encoded_eq_nil (empty : encoded cs = []) : cs = [] := by
  refine List.eq_nil_iff_forall_not_mem.mpr fun c member => ?_
  exact String.utf8EncodeChar_ne_nil (List.flatMap_eq_nil_iff.mp empty c member)

theorem encoded_ascii {b : UInt8} {bs : List UInt8} (small : b < 0x80) (spelled : encoded (c :: cs) = b :: bs) :
    c = Char.ofNat b.toNat ∧ bs = encoded cs := by
  rw [encoded_cons] at spelled
  rcases utf8EncodeChar_cases c with ⟨b', single, same⟩ | beyond
  · rw [single] at spelled
    obtain ⟨rfl, rest⟩ := List.cons.inj spelled
    refine ⟨?_, rest.symm⟩
    rw [← same, Char.ofNat_toNat]
  · obtain ⟨b', bs', first⟩ := List.exists_cons_of_ne_nil (String.utf8EncodeChar_ne_nil (c := c))
    rw [first] at spelled beyond
    obtain ⟨rfl, _⟩ := List.cons.inj spelled
    exact absurd small (beyond b' List.mem_cons_self)

theorem decode_encoded (cs : List Char) : decode (encoded cs) = String.ofList cs := by
  rw [← bytes_ofList, decode_bytes]

theorem decode?_encoded (cs : List Char) : decode? (encoded cs) = some (String.ofList cs) := by
  rw [← bytes_ofList, decode?_bytes]

theorem span_encoded (high : ∀ b, ¬ b < 0x80 → q b = true) (cs : List Char) : ∃ front rest, cs = front ++ rest ∧
    (encoded cs).takeWhile q = encoded front ∧ (encoded cs).dropWhile q = encoded rest := by
  induction cs with
  | nil => exact ⟨[], [], rfl, rfl, rfl⟩
  | cons c cs ih =>
    by_cases whole : ∀ b ∈ String.utf8EncodeChar c, q b = true
    · obtain ⟨front, rest, rfl, taken, left⟩ := ih
      refine ⟨c :: front, rest, rfl, ?_, ?_⟩
      · rw [encoded_cons, List.takeWhile_append_of_pos whole, taken, encoded_cons]
      · rw [encoded_cons, List.dropWhile_append_of_pos whole, left]
    · rcases utf8EncodeChar_cases c with ⟨b, single, _⟩ | beyond
      · have ends : ¬ q b = true := by simpa [single] using whole
        refine ⟨[], c :: cs, rfl, ?_, ?_⟩
        · rw [encoded_cons, single, List.singleton_append, List.takeWhile_cons_of_neg ends]
          rfl
        · rw [encoded_cons, single, List.singleton_append, List.dropWhile_cons_of_neg ends]
      · exact absurd (fun b member => high b (beyond b member)) whole

theorem solid_of_high {b : UInt8} (high : ¬ b < 0x80) : (!isBlankByte b) = true := by
  cases blank : isBlankByte b with
  | false => rfl
  | true => exact absurd (blank_ascii blank).1 high

def escapee (c : Char) : Char := if c = 'n' then '\n' else if c = 't' then '\t' else c

def unescaped : List Char → List Char
  | [] => []
  | [c] => [c]
  | c :: d :: cs => if c = '\\' then escapee d :: unescaped cs else c :: unescaped (d :: cs)

theorem unescaped_plain (plain : c ≠ '\\') (cs : List Char) : unescaped (c :: cs) = c :: unescaped cs := by
  cases cs with
  | nil => rfl
  | cons d cs => rw [unescaped, if_neg plain]

end Text

theorem Position.after_append (p : Position) (bs bs' : List UInt8) : p.after (bs ++ bs') = (p.after bs).after bs' :=
  List.foldl_append

namespace Token

open Text

variable {b : UInt8} {bs : List UInt8} {c : Char} {cs : List Char} {p : Position} {row : List Entry}

theorem escapee_single (single : String.utf8EncodeChar c = [b]) (same : c.toNat = b.toNat) :
    String.utf8EncodeChar (escapee c) = [unescape b] := by
  unfold escapee unescape
  split
  · subst c
    have letter : b = 0x6e := UInt8.toNat_inj.mp same.symm
    rw [if_pos letter]
    rfl
  · split
    · subst c
      have letter : b = 0x74 := UInt8.toNat_inj.mp same.symm
      rw [letter]
      rfl
    · rename_i n t
      have other : b ≠ 0x6e := by
        rintro rfl
        exact n (Char.toNat_inj.mp same)
      have other' : b ≠ 0x74 := by
        rintro rfl
        exact t (Char.toNat_inj.mp same)
      rw [if_neg other, if_neg other', single]

theorem escapee_high (beyond : ∀ b ∈ String.utf8EncodeChar c, ¬ b < 0x80) : escapee c = c := by
  unfold escapee
  split
  · subst c
    exact absurd (by decide) (beyond 0x6e (by decide))
  · split
    · subst c
      exact absurd (by decide) (beyond 0x74 (by decide))
    · rfl

theorem unescape_high (high : ¬ b < 0x80) : unescape b = b := by
  have other : b ≠ 0x6e := by
    rintro rfl
    exact high (by decide)
  have other' : b ≠ 0x74 := by
    rintro rfl
    exact high (by decide)
  unfold unescape
  rw [if_neg other, if_neg other']

theorem stringBody_escapee (c : Char) (rest : List UInt8) :
    stringBody (0x5c :: (String.utf8EncodeChar c ++ rest)) =
      ((stringBody rest).1.map (String.utf8EncodeChar (escapee c) ++ ·), (stringBody rest).2) := by
  -- The escape takes the first byte of the character. Bytes beyond ASCII stand for themselves, there and after it.
  rcases utf8EncodeChar_cases c with ⟨b, single, same⟩ | beyond
  · rw [escapee_single single same, single, stringBody.eq_def]
    rfl
  · rw [escapee_high beyond]
    obtain ⟨b, bs, spelled⟩ := List.exists_cons_of_ne_nil (String.utf8EncodeChar_ne_nil (c := c))
    rw [spelled] at beyond ⊢
    have plain : ∀ b' ∈ bs, b' ≠ 0x0a ∧ b' ≠ 0x22 ∧ b' ≠ 0x5c := by
      intro b' member
      have high := beyond b' (List.mem_cons_of_mem b member)
      refine ⟨?_, ?_, ?_⟩ <;> rintro rfl <;> exact high (by decide)
    rw [stringBody.eq_def]
    simp [stringBody_plain plain, unescape_high (beyond b List.mem_cons_self), Function.comp_def]

inductive Quoted (cs : List Char) : Prop where
  | closed (body rest : List Char) : cs = body ++ '\x22' :: rest →
      stringBody (encoded cs) = (some (encoded (unescaped body)), encoded rest) → Quoted cs
  | unclosed (body rest : List Char) : cs = body ++ rest → stringBody (encoded cs) = (none, encoded rest) → Quoted cs

theorem Quoted.cons (backslash : c ≠ '\\') (quoted : Quoted cs) : Quoted (c :: cs) := by
  by_cases newline : c = '\n'
  · subst c
    exact .unclosed [] ('\n' :: cs) rfl (by rw [stringBody.eq_def]; rfl)
  by_cases quote : c = '\x22'
  · subst c
    exact .closed [] cs rfl (by rw [stringBody.eq_def]; rfl)
  have plain := plain_bytes newline quote backslash
  cases quoted with
  | closed body rest split read =>
    refine .closed (c :: body) rest (by rw [split]; rfl) ?_
    rw [encoded_cons, stringBody_plain plain, read, unescaped_plain backslash]
    rfl
  | unclosed body rest split read =>
    refine .unclosed (c :: body) rest (by rw [split]; rfl) ?_
    rw [encoded_cons, stringBody_plain plain, read]
    rfl

theorem Quoted.escape (quoted : Quoted cs) : Quoted ('\\' :: c :: cs) := by
  have spelled : encoded ('\\' :: c :: cs) = 0x5c :: (String.utf8EncodeChar c ++ encoded cs) := rfl
  cases quoted with
  | closed body rest split read =>
    refine .closed ('\\' :: c :: body) rest (by rw [split]; rfl) ?_
    rw [spelled, stringBody_escapee, read]
    rfl
  | unclosed body rest split read =>
    refine .unclosed ('\\' :: c :: body) rest (by rw [split]; rfl) ?_
    rw [spelled, stringBody_escapee, read]
    rfl

theorem quoted (cs : List Char) : Quoted cs := by
  -- by induction along the recursion of `unescaped`, which takes an escape as a whole
  have empty : Quoted [] := .unclosed [] [] rfl rfl
  induction cs using unescaped.induct with
  | case1 => exact empty
  | case2 c =>
    by_cases backslash : c = '\\'
    · subst c
      exact .unclosed ['\\'] [] rfl (by rw [stringBody.eq_def]; rfl)
    · exact empty.cons backslash
  | case3 c cs ih => exact ih.escape
  | case4 c d cs backslash ih => exact ih.cons backslash

theorem chunk_cons (solid : isBlankByte b = false) (bs : List UInt8) :
    chunk (b :: bs) = b :: chunk bs ∧ afterChunk (b :: bs) = afterChunk bs := by
  unfold chunk afterChunk
  simp [solid]

theorem chunk_encoded (cs : List Char) : ∃ name rest, cs = name ++ rest ∧ chunk (encoded cs) = encoded name ∧
    afterChunk (encoded cs) = encoded rest := span_encoded (fun _ => solid_of_high) cs

theorem ofChunk_colour (bs : List UInt8) : Item.ofChunk (0x23 :: bs) = .token (.word (decode (0x23 :: bs))) := rfl

-- What the scanner finds at the start of a row of characters: those that it takes and what it makes of them,
-- when `rest` follows. Where it reads bytes as a text, they are the bytes of characters.
inductive Cut (rest : List Char) : List Char → Item → Prop where
  | string (body : List Char) :
      stringBody (encoded (body ++ '\x22' :: rest)) = (some (encoded (unescaped body)), encoded rest) →
      Cut rest ('\x22' :: body ++ ['\x22']) (.token (.string (.ofList (unescaped body))))
  | openString (body : List Char) : Cut rest ('\x22' :: body) (.mistake .openString)
  | symbol (name : List Char) : chunk (encoded (name ++ rest)) = encoded name →
      Cut rest ('\x27' :: name) (.token (.symbol (.ofList name)))
  | emptySymbol : Cut rest ['\x27'] (.mistake .emptySymbol)
  | comment (body : List Char) : isColour (encoded (body ++ rest)) = false → '\n' ∉ body →
      (∀ c ∈ rest.head?, c = '\n') → Cut rest ('#' :: body) .comment
  | plain (name : List Char) : name ≠ [] → chunk (encoded (name ++ rest)) = encoded name →
      Cut rest name (.ofChunk (encoded name))

theorem comment_encoded (cs : List Char) : ∃ body rest, cs = body ++ rest ∧
    (encoded cs).dropWhile (· != 0x0a) = encoded rest ∧ '\n' ∉ body ∧ ∀ c ∈ rest.head?, c = '\n' := by
  have high : ∀ b : UInt8, ¬ b < 0x80 → (b != 0x0a) = true := by
    intro b beyond
    refine bne_iff_ne.mpr ?_
    rintro rfl
    exact beyond (by decide)
  obtain ⟨body, rest, split, taken, left⟩ := span_encoded high cs
  refine ⟨body, rest, split, left, ?_, ?_⟩
  · intro member
    have inside : 0x0a ∈ (encoded cs).takeWhile (· != 0x0a) := by
      rw [taken]
      exact List.mem_flatMap.mpr ⟨'\n', member, by decide⟩
    exact absurd (List.all_eq_true.mp List.all_takeWhile _ inside) (by decide)
  · intro c first
    cases rest with
    | nil => cases first
    | cons d rest =>
      cases first
      obtain ⟨b, bs, spelled⟩ := List.exists_cons_of_ne_nil fun empty => List.cons_ne_nil c rest (encoded_eq_nil empty)
      have ends : ¬ (b != 0x0a) = true := by
        have stop := List.head?_dropWhile_not (· != 0x0a) (encoded cs)
        rw [left, spelled] at stop
        simpa using stop
      have newline : b = 0x0a := by simpa using ends
      subst newline
      exact (encoded_ascii (by decide) spelled).1

theorem plain_cut (spelled : encoded (c :: cs) = b :: bs) (solid : isBlankByte b = false) :
    ∃ taken rest, c :: cs = taken ++ rest ∧ taken ≠ [] ∧ Cut rest taken (.ofChunk (b :: chunk bs)) ∧
      afterChunk bs = encoded rest := by
  obtain ⟨name, rest, split, taken, left⟩ := chunk_encoded (c :: cs)
  have whole : encoded name = b :: chunk bs := by rw [← taken, spelled, (chunk_cons solid bs).1]
  have filled : name ≠ [] := by
    rintro rfl
    cases whole
  refine ⟨name, rest, split, filled, ?_, ?_⟩
  · rw [← whole]
    exact .plain name filled (split ▸ taken)
  · rw [← left, spelled, (chunk_cons solid bs).2]

theorem item_cut (spelled : encoded (c :: cs) = b :: bs) (solid : isBlankByte b = false) :
    ∃ taken rest, c :: cs = taken ++ rest ∧ taken ≠ [] ∧ Cut rest taken (item b bs).1 ∧ (item b bs).2 = encoded rest := by
  unfold item
  split
  case isTrue quote =>
    subst quote
    obtain ⟨rfl, rfl⟩ := encoded_ascii (by decide) spelled
    cases quoted cs with
    | closed body rest split read =>
      refine ⟨'\x22' :: body ++ ['\x22'], rest, by simp [split], by simp, ?_⟩
      rw [read]
      simp only [decode_encoded, and_true]
      exact .string body (split ▸ read)
    | unclosed body rest split read =>
      refine ⟨'\x22' :: body, rest, by rw [split]; rfl, by simp, ?_⟩
      rw [read]
      exact ⟨.openString body, rfl⟩
  case isFalse =>
    split
    case isTrue quote =>
      subst quote
      obtain ⟨rfl, rfl⟩ := encoded_ascii (by decide) spelled
      split
      case isTrue => exact ⟨['\x27'], cs, rfl, by simp, .emptySymbol, rfl⟩
      case isFalse =>
        obtain ⟨name, rest, split, taken, left⟩ := chunk_encoded cs
        refine ⟨'\x27' :: name, rest, by rw [split]; rfl, by simp, ?_, left⟩
        rw [taken, decode_encoded]
        exact .symbol name (split ▸ taken)
    case isFalse =>
      split
      case isTrue sign =>
        subst sign
        split
        case isTrue =>
          rw [← ofChunk_colour]
          exact plain_cut spelled solid
        case isFalse comment =>
          obtain ⟨rfl, rfl⟩ := encoded_ascii (by decide) spelled
          obtain ⟨body, rest, split, left, unbroken, ends⟩ := comment_encoded cs
          refine ⟨'#' :: body, rest, by rw [split]; rfl, by simp, ?_, left⟩
          exact .comment body (split ▸ eq_false_of_ne_true comment) unbroken ends
      case isFalse => exact plain_cut spelled solid

theorem taken_eq {front left : List UInt8} (whole : b :: bs = front ++ left) (filled : front ≠ []) :
    b :: bs.take (bs.length - left.length) = front := by
  cases front with
  | nil => exact absurd rfl filled
  | cons b' front =>
    obtain ⟨rfl, rfl⟩ := List.cons.inj whole
    simp

inductive Scanned : Position → List Char → List Entry → Prop where
  | finish {p : Position} : Scanned p [] [.ok ⟨.finish, "", p⟩]
  | blank {p : Position} {c : Char} {cs : List Char} {row : List Entry} : c ∈ blanks →
      Scanned (p.after (encoded [c])) cs row → Scanned p (c :: cs) row
  | item {p : Position} {taken rest : List Char} {found : Item} {row : List Entry} : taken ≠ [] → Cut rest taken found →
      Scanned (p.after (encoded taken)) rest row → Scanned p (taken ++ rest) ((found.entry (encoded taken) p).toList ++ row)

theorem entries_scanned : ∀ cs, encoded cs = bs → Scanned p cs (entries p bs) := by
  fun_induction entries p bs with
  | case1 p =>
    intro cs spelled
    rw [encoded_eq_nil spelled]
    exact .finish
  | case2 p b bs blank ih =>
    intro cs spelled
    cases cs with
    | nil => cases spelled
    | cons c cs =>
      obtain ⟨small, among⟩ := blank_ascii blank
      obtain ⟨rfl, rest⟩ := encoded_ascii small spelled
      have single : encoded [Char.ofNat b.toNat] = [b] := by
        have whole : encoded [Char.ofNat b.toNat] ++ encoded cs = [b] ++ encoded cs := by
          rw [← encoded_append, ← rest]
          exact spelled
        exact List.append_cancel_right whole
      refine .blank among ?_
      rw [single]
      exact ih cs rest.symm
  | case3 p b bs solid found taken ih =>
    intro cs spelled
    cases cs with
    | nil => cases spelled
    | cons c cs =>
      obtain ⟨characters, rest, split, filled, cut, left⟩ := item_cut spelled (eq_false_of_ne_true solid)
      have whole : b :: bs = encoded characters ++ found.2 := by rw [← spelled, split, encoded_append, left]
      have same : taken = encoded characters := taken_eq whole fun empty => filled (encoded_eq_nil empty)
      have later := ih rest left.symm
      rw [same] at later ⊢
      rw [split]
      exact .item filled cut later

-- How the characters of a lexeme make the kind of its token, when `after` follows. The bytes that are read as a
-- text there are valid ones.
inductive Reads (after : List Char) : TokenKind → List Char → Prop where
  | string (body : List Char) (content : List UInt8) :
      stringBody (encoded (body ++ '\x22' :: after)) = (some content, encoded after) →
      decode? content = some (.ofList (unescaped body)) →
      Reads after (.string (.ofList (unescaped body))) ('\x22' :: body ++ ['\x22'])
  | symbol (name : List Char) : decode? (chunk (encoded (name ++ after))) = some (.ofList name) →
      Reads after (.symbol (.ofList name)) ('\x27' :: name)
  | word (name : List Char) : decode? (chunk (encoded (name ++ after))) = some (.ofList name) →
      Reads after (.word (.ofList name)) name
  | number (text : List Char) (x : Float) : decode? (chunk (encoded (text ++ after))) = some (.ofList text) →
      Decimal.read? (.ofList text) = some x → Reads after (.number x) text
  | finish : Reads after .finish []

structure Sliced (line : Nat) (text : String) (t : Token) (before after : List Char) : Prop where
  slice : text.toList = before ++ t.lexeme.toList ++ after
  place : t.position = Position.after ⟨line, 1⟩ (encoded before)
  reads : Reads after t.kind t.lexeme.toList

-- A token is a piece of the text. So is a chunk that is no number, in a mistake.
def Entry.Faithful (line : Nat) (text : String) : Entry → Prop
  | .ok t => ∃ before after, t.Sliced line text before after
  | .error m => ∃ before rest, text.toList = before ++ rest ∧ m.position = Position.after ⟨line, 1⟩ (encoded before) ∧
      ∀ name, m.cause = .invalidNumber name → name.toList <+: rest ∧ decode? (chunk (encoded rest)) = some name

theorem ofChunk_cases (name : List Char) : Item.ofChunk (encoded name) = .token (.word (.ofList name)) ∨
    (∃ x, Decimal.read? (.ofList name) = some x ∧ Item.ofChunk (encoded name) = .token (.number x)) ∨
    Item.ofChunk (encoded name) = .mistake (.invalidNumber (.ofList name)) := by
  unfold Item.ofChunk
  simp only [decode_encoded]
  split
  · split
    · rename_i x number
      exact .inr (.inl ⟨x, number, rfl⟩)
    · exact .inr (.inr rfl)
  · exact .inl rfl

section Pieces

variable {line : Nat} {text : String} {before taken rest : List Char} {found : Item} {kind : TokenKind}

theorem Reads.faithful (reads : Reads rest kind taken) (whole : text.toList = before ++ (taken ++ rest)) :
    Entry.Faithful line text (.ok ⟨kind, decode (encoded taken), Position.after ⟨line, 1⟩ (encoded before)⟩) := by
  rw [decode_encoded]
  refine ⟨before, rest, ?_, rfl, ?_⟩
  · rw [whole, String.toList_ofList, List.append_assoc]
  · rw [String.toList_ofList]
    exact reads

theorem Cut.faithful (cut : Cut rest taken found) (whole : text.toList = before ++ (taken ++ rest)) :
    ∀ entry ∈ found.entry (encoded taken) (Position.after ⟨line, 1⟩ (encoded before)), entry.Faithful line text := by
  intro entry made
  cases cut with
  | string body read =>
    cases made
    exact (Reads.string body _ read (decode?_encoded _)).faithful whole
  | symbol name read =>
    cases made
    exact (Reads.symbol name (by rw [read]; exact decode?_encoded _)).faithful whole
  | openString | emptySymbol =>
    cases made
    exact ⟨before, _, whole, rfl, by simp⟩
  | comment => cases made
  | plain _ filled read =>
    have valid : decode? (chunk (encoded (taken ++ rest))) = some (.ofList taken) := by
      rw [read]
      exact decode?_encoded _
    rcases ofChunk_cases taken with word | ⟨x, number, made'⟩ | invalid
    · rw [word] at made
      cases made
      exact (Reads.word taken valid).faithful whole
    · rw [made'] at made
      cases made
      exact (Reads.number taken x valid number).faithful whole
    · rw [invalid] at made
      cases made
      refine ⟨before, taken ++ rest, whole, rfl, ?_⟩
      rintro name same
      cases same
      exact ⟨by simp, valid⟩

theorem Scanned.faithful {p : Position} {cs : List Char} {row : List Entry} (scanned : Scanned p cs row) :
    ∀ before, p = Position.after ⟨line, 1⟩ (encoded before) → text.toList = before ++ cs →
      ∀ entry ∈ row, entry.Faithful line text := by
  -- By induction on the scan. What lies before the place of the scan is the text up to there.
  induction scanned with
  | finish =>
    rintro before rfl whole entry member
    cases List.mem_singleton.mp member
    exact ⟨before, [], by simpa using whole, rfl, .finish⟩
  | @blank p c cs row _ _ ih =>
    rintro before rfl whole
    refine ih (before ++ [c]) ?_ (by simpa using whole)
    rw [encoded_append, Position.after_append]
  | @item p taken rest found row _ cut _ ih =>
    rintro before rfl whole entry member
    rcases List.mem_append.mp member with here | later
    · exact cut.faithful whole entry (Option.mem_toList.mp here)
    · refine ih (before ++ taken) ?_ (by simpa using whole) entry later
      rw [encoded_append, Position.after_append]

end Pieces
end Token

theorem tokenize_faithful (line : Nat) (text : String) :
    (∀ entry ∈ Token.scan line text, entry.Faithful line text) ∧
    match tokenize line text with
    | .ok tokens => ∀ t ∈ tokens, Token.Entry.Faithful line text (.ok t)
    | .error mistakes => ∀ m ∈ mistakes, Token.Entry.Faithful line text (.error m) := by
  have scanned := Token.entries_scanned (p := ⟨line, 1⟩) text.toList (Text.bytes_eq text).symm
  have all : ∀ entry ∈ Token.scan line text, entry.Faithful line text := scanned.faithful [] rfl rfl
  refine ⟨all, ?_⟩
  cases read : tokenize line text with
  | ok tokens =>
    intro t member
    apply all
    rw [(scan_ok read).1]
    exact List.mem_map_of_mem member
  | error mistakes =>
    intro m member
    exact all _ (mem_collect_error read member)

end Diorama
