import Diorama.Proofs.Coverage

namespace Diorama

section Collecting

variable {ε α : Type}

def faults : Except (List ε) (List α) → List ε
  | .ok _ => []
  | .error errors => errors

def both : Except (List ε) (List α) → Except (List ε) (List α) → Except (List ε) (List α)
  | .ok first, .ok second => .ok (first ++ second)
  | first, second => .error (faults first ++ faults second)

theorem collect_error_cons (e : ε) (results : List (Except ε α)) :
    collect (.error e :: results) = .error (e :: faults (collect results)) := by
  unfold collect
  dsimp only
  split
  · cases ‹_›
  · split
    · rename_i clean
      rw [List.filterMap_cons]
      simp only [List.isEmpty_iff.mp clean]
      rfl
    · rfl

theorem collect_append (first second : List (Except ε α)) : collect (first ++ second) = both (collect first) (collect second) := by
  induction first with
  | nil =>
    change collect second = both (.ok []) (collect second)
    cases collect second <;> rfl
  | cons result first ih =>
    cases result with
    | ok a =>
      rw [List.cons_append, collect_ok_cons, collect_ok_cons, ih]
      cases collect first <;> cases collect second <;> rfl
    | error e =>
      rw [List.cons_append, collect_error_cons, collect_error_cons, ih]
      cases collect first <;> cases collect second <;> rfl

theorem faults_map (result : Except (List ε) (List α)) (f : List α → List α) : faults (result.map f) = faults result := by
  cases result <;> rfl

theorem faults_both (first second : Except (List ε) (List α)) : faults (both first second) = faults first ++ faults second := by
  cases first <;> cases second <;> rfl

end Collecting

namespace Text

theorem count_newline (cs : List Char) : (encoded cs).count 0x0a = cs.count '\n' := by
  induction cs with
  | nil => rfl
  | cons c cs ih =>
    rw [encoded_cons, List.count_append, ih, List.count_cons, Nat.add_comm]
    congr 1
    by_cases newline : c = '\n'
    · subst newline
      rfl
    · have absent : 0x0a ∉ String.utf8EncodeChar c := fun member =>
        newline (Char.toNat_inj.mp (ascii_of_mem (by decide) member))
      rw [List.count_eq_zero_of_not_mem absent]
      simp [newline]

theorem bytes_joined (a b : String) : bytes (a ++ "\n" ++ b) = bytes a ++ 0x0a :: bytes b := by
  rw [bytes_append, bytes_append, List.append_assoc, bytes_eq "\n"]
  rfl

end Text

namespace Token

open Text

variable {b : UInt8} {bs rest body : List UInt8}

-- What stands behind an opening quote runs to the end of the text, and an escape is begun there.
inductive Hanging : List UInt8 → Prop where
  | last : Hanging [0x5c]
  | plain {b : UInt8} {bs : List UInt8} : b ≠ 0x0a → b ≠ 0x22 → b ≠ 0x5c → Hanging bs → Hanging (b :: bs)
  | escape {b : UInt8} {bs : List UInt8} : Hanging bs → Hanging (0x5c :: b :: bs)

-- The scanner comes to `rest` and looks for a token there.
inductive ComesTo : List UInt8 → List UInt8 → Prop where
  | here {bs : List UInt8} : ComesTo bs bs
  | blank {b : UInt8} {bs rest : List UInt8} : isBlankByte b = true → ComesTo bs rest → ComesTo (b :: bs) rest
  | item {b : UInt8} {bs rest : List UInt8} : isBlankByte b = false → ComesTo (item b bs).2 rest → ComesTo (b :: bs) rest

-- The text ends in an open string, and in it with a backslash that escapes nothing.
def Pending (bs : List UInt8) : Prop := ∃ body, ComesTo bs (0x22 :: body) ∧ Hanging body

theorem Pending.blank (white : isBlankByte b = true) (pending : Pending bs) : Pending (b :: bs) := by
  obtain ⟨body, comes, hanging⟩ := pending
  exact ⟨body, .blank white comes, hanging⟩

theorem Pending.item (solid : isBlankByte b = false) (pending : Pending (item b bs).2) : Pending (b :: bs) := by
  obtain ⟨body, comes, hanging⟩ := pending
  exact ⟨body, .item solid comes, hanging⟩

theorem stringBody_newline (complete : ¬ Hanging bs) (rest : List UInt8) :
    stringBody (bs ++ 0x0a :: rest) = ((stringBody bs).1, (stringBody bs).2 ++ 0x0a :: rest) := by
  fun_induction stringBody bs with
  | case1 =>
    rw [List.nil_append, stringBody.eq_def]
    rfl
  | case2 bs =>
    rw [List.cons_append, stringBody.eq_def]
    rfl
  | case3 bs => exact stringBody_quote _
  | case4 => exact absurd .last complete
  | case5 c cs found _ _ ih =>
    have later := ih fun hanging => complete (.escape hanging)
    rw [List.cons_append, List.cons_append, stringBody.eq_def]
    simp [later, found]
  | case6 b bs newline quote backslash found ih =>
    have later := ih fun hanging => complete (.plain newline quote backslash hanging)
    rw [List.cons_append, stringBody.eq_def]
    simp [newline, quote, backslash, later, found]

theorem Hanging.stringBody (hanging : Hanging bs) : stringBody bs = (none, []) ∧
    ∃ content, stringBody (bs ++ [0x0a, 0x22]) = (some content, []) := by
  induction hanging with
  | last => exact ⟨by rw [Token.stringBody.eq_def]; rfl, [0x0a], by rw [Token.stringBody.eq_def]; rfl⟩
  | @plain b bs newline quote backslash _ ih =>
    obtain ⟨none, content, some⟩ := ih
    constructor
    · rw [Token.stringBody.eq_def]
      simp [newline, quote, backslash, none]
    · refine ⟨b :: content, ?_⟩
      rw [List.cons_append, Token.stringBody.eq_def]
      simp [newline, quote, backslash, some]
  | @escape b bs _ ih =>
    obtain ⟨none, content, some⟩ := ih
    constructor
    · rw [Token.stringBody.eq_def]
      simp [none]
    · refine ⟨unescape b :: content, ?_⟩
      rw [List.cons_append, List.cons_append, Token.stringBody.eq_def]
      simp [some]

theorem span_newline {q : UInt8 → Bool} (stops : q 0x0a = false) (bs rest : List UInt8) :
    (bs ++ 0x0a :: rest).takeWhile q = bs.takeWhile q ∧
      (bs ++ 0x0a :: rest).dropWhile q = bs.dropWhile q ++ 0x0a :: rest := by
  induction bs with
  | nil => simp [stops]
  | cons b bs ih =>
    cases goes : q b with
    | true => simp [goes, ih]
    | false => simp [goes]

theorem isColour_newline (bs rest : List UInt8) : isColour (bs ++ 0x0a :: rest) = isColour bs := by
  unfold isColour
  by_cases long : 6 ≤ bs.length
  · rw [List.take_append_of_le_length long]
  · have missing : ((bs ++ 0x0a :: rest).take 6).all isHexByte = false := by
      refine List.all_eq_false.mpr ⟨0x0a, ?_, by decide⟩
      rw [List.take_append]
      obtain ⟨n, more⟩ : ∃ n, 6 - bs.length = n + 1 := Nat.exists_eq_succ_of_ne_zero (by omega)
      simp [more]
    have short : ((bs.take 6).length == 6) = false := by
      rw [List.length_take]
      exact beq_false_of_ne (by omega)
    rw [missing, short, Bool.and_false, Bool.false_and]

theorem item_newline (complete : ¬ (b = 0x22 ∧ Hanging bs)) (rest : List UInt8) :
    item b (bs ++ 0x0a :: rest) = ((item b bs).1, (item b bs).2 ++ 0x0a :: rest) := by
  obtain ⟨whole, left⟩ : chunk (bs ++ 0x0a :: rest) = chunk bs ∧
      afterChunk (bs ++ 0x0a :: rest) = afterChunk bs ++ 0x0a :: rest := span_newline (by rfl) bs rest
  unfold item
  rw [whole, left, isColour_newline, (span_newline (q := (· != 0x0a)) (by rfl) bs rest).2]
  split
  · rename_i quote
    rw [stringBody_newline (fun hanging => complete ⟨quote, hanging⟩)]
    obtain ⟨content, remaining⟩ := stringBody bs
    cases content <;> rfl
  · split
    · split <;> rfl
    · split
      · split <;> rfl
      · rfl

theorem entries_item (p : Position) (solid : isBlankByte b = false) (bs : List UInt8) :
    entries p (b :: bs) = ((item b bs).1.entry (b :: bs.take (bs.length - (item b bs).2.length)) p).toList ++
      entries (p.after (b :: bs.take (bs.length - (item b bs).2.length))) (item b bs).2 := by
  rw [entries, solid]
  rfl

theorem entries_item_newline (p : Position) (solid : isBlankByte b = false) (complete : ¬ (b = 0x22 ∧ Hanging bs))
    (rest : List UInt8) : entries p (b :: bs ++ 0x0a :: rest) =
      ((item b bs).1.entry (b :: bs.take (bs.length - (item b bs).2.length)) p).toList ++
        entries (p.after (b :: bs.take (bs.length - (item b bs).2.length))) ((item b bs).2 ++ 0x0a :: rest) := by
  have same : (bs ++ 0x0a :: rest).take ((bs ++ 0x0a :: rest).length - ((item b bs).2 ++ 0x0a :: rest).length) =
      bs.take (bs.length - (item b bs).2.length) := by
    rw [List.length_append, List.length_append, Nat.add_sub_add_right, List.take_append_of_le_length (Nat.sub_le _ _)]
  rw [List.cons_append, entries_item p solid, item_newline complete rest]
  dsimp only
  rw [same]

theorem entries_newline (p : Position) (settled : ¬ Pending bs) (rest : List UInt8) :
    entries p (bs ++ 0x0a :: rest) = (entries p bs).dropLast ++ entries (p.after (bs ++ [0x0a])) rest := by
  -- by induction on the scan of the first text, whose last entry marks its end
  fun_induction entries p bs with
  | case1 p =>
    rw [List.nil_append, entries, if_pos (by decide)]
    rfl
  | case2 p b bs blank ih =>
    have later := ih fun pending => settled (pending.blank blank)
    rw [List.cons_append, entries, if_pos blank, later]
    rfl
  | case3 p b bs solid found taken ih =>
    have inked : isBlankByte b = false := eq_false_of_ne_true solid
    have complete : ¬ (b = 0x22 ∧ Hanging bs) := by
      rintro ⟨rfl, hanging⟩
      exact settled ⟨bs, .here, hanging⟩
    have later := ih fun pending => settled (Pending.item inked pending)
    have place : p.after (b :: bs ++ [0x0a]) = (p.after taken).after (found.2 ++ [0x0a]) := by
      obtain ⟨front, whole⟩ : found.2 <:+ bs := item_suffix b bs
      have split : b :: bs = b :: front ++ found.2 := by rw [List.cons_append, whole]
      have same : taken = b :: front := taken_eq split (List.cons_ne_nil b front)
      rw [same, ← Position.after_append, split, List.append_assoc]
    have nonempty : entries (p.after taken) found.2 ≠ [] := by
      obtain ⟨init, finish, row, _⟩ := entries_row (p.after taken) found.2
      simp [row]
    rw [entries_item_newline p inked complete, List.dropLast_append_of_ne_nil nonempty, List.append_assoc, place]
    exact congrArg _ later

theorem faults_pending (comes : ComesTo bs (0x22 :: body)) (hanging : Hanging body) (p : Position) :
    ∃ m, faults (collect (entries p bs)) = faults (collect (entries p (bs ++ [0x0a, 0x22]))) ++ [m] := by
  -- a newline and a quote behind the text close its open string, which was a mistake
  generalize found : 0x22 :: body = rest at comes
  induction comes generalizing p with
  | here =>
    subst found
    obtain ⟨unclosed, content, closed⟩ := hanging.stringBody
    have mistaken : item 0x22 body = (.mistake .openString, []) := by rw [item, if_pos rfl, unclosed]
    have read : item 0x22 (body ++ [0x0a, 0x22]) = (.token (.string (decode content)), []) := by
      rw [item, if_pos rfl, closed]
    refine ⟨⟨.openString, p⟩, ?_⟩
    rw [List.cons_append, entries_item p rfl, entries_item p rfl, mistaken, read, entries, entries]
    rfl
  | @blank b bs rest white _ ih =>
    obtain ⟨m, same⟩ := ih (p.step b) found
    refine ⟨m, ?_⟩
    rw [List.cons_append, entries, if_pos white, entries, if_pos white, same]
  | @item b bs rest solid comes ih =>
    have complete : ¬ (b = 0x22 ∧ Hanging bs) := by
      rintro ⟨rfl, ended⟩
      rw [item, if_pos rfl, ended.stringBody.1] at comes
      cases comes
      cases found
    obtain ⟨m, same⟩ := ih _ found
    refine ⟨m, ?_⟩
    rw [entries_item p solid, entries_item_newline p solid complete, collect_append, collect_append, faults_both,
      faults_both, same, List.append_assoc]

end Token

-- The first text loses the mark of its end. For one that is pending there is a second text, a quote, for which this fails.
theorem tokenize_newline_iff (a : String) :
    (∀ n b, tokenize n (a ++ "\n" ++ b) =
      both ((tokenize n a).map List.dropLast) (tokenize (n + 1 + a.toList.count '\n') b)) ↔
    ¬ Token.Pending (Text.bytes a) := by
  constructor
  · rintro bounded ⟨body, comes, hanging⟩
    obtain ⟨m, more⟩ := Token.faults_pending comes hanging ⟨1, 1⟩
    have joined : Text.bytes (a ++ "\n" ++ "\x22") = Text.bytes a ++ [0x0a, 0x22] := by
      rw [Text.bytes_joined, Text.bytes_eq "\x22"]
      rfl
    have fewer : faults (tokenize 1 a) = faults (tokenize 1 (a ++ "\n" ++ "\x22")) ++ [m] := by
      unfold tokenize Token.scan
      rw [joined]
      exact more
    have same := congrArg (fun result => (faults result).length) (bounded 1 "\x22")
    rw [faults_both, faults_map, fewer, List.length_append, List.length_append, List.length_singleton] at same
    omega
  · intro settled n b
    obtain ⟨init, finish, row, _⟩ := Token.entries_row ⟨n, 1⟩ (Text.bytes a)
    have first : tokenize n a = both (collect init) (.ok [finish]) := by
      unfold tokenize Token.scan
      rw [row, collect_append]
      rfl
    have place : Position.after ⟨n, 1⟩ (Text.bytes a ++ [0x0a]) = ⟨n + 1 + a.toList.count '\n', 1⟩ := by
      rw [Position.after_eq_behind, Position.behind, Text.bytes_eq]
      simp [Text.count_newline, Nat.add_assoc, Nat.add_comm]
    have second : tokenize n (a ++ "\n" ++ b) = both (collect init) (tokenize (n + 1 + a.toList.count '\n') b) := by
      unfold tokenize Token.scan
      rw [Text.bytes_joined, Token.entries_newline _ settled, row, List.dropLast_concat, collect_append, place]
    rw [first, second]
    cases collect init <;> cases tokenize (n + 1 + a.toList.count '\n') b <;> simp [both, faults, Except.map]

theorem newline_within_string : faults (tokenize 1 ("\x22x\\" ++ "\n" ++ "y\x22")) = [] ∧
    faults (tokenize 1 "\x22x\\") = [⟨.openString, ⟨1, 1⟩⟩] ∧
    tokenize 1 ("\x22x\\" ++ "\n" ++ "y\x22") ≠
      both ((tokenize 1 "\x22x\\").map List.dropLast) (tokenize (1 + 1 + "\x22x\\".toList.count '\n') "y\x22") := by
  have clean : faults (tokenize 1 ("\x22x\\" ++ "\n" ++ "y\x22")) = [] := by decide +kernel
  have mistaken : faults (tokenize 1 "\x22x\\") = [⟨.openString, ⟨1, 1⟩⟩] := by decide +kernel
  refine ⟨clean, mistaken, fun same => ?_⟩
  have faulty := congrArg faults same
  rw [clean, faults_both, faults_map, mistaken] at faulty
  cases faulty

end Diorama
