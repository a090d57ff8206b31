import Diorama.Proofs.Bytes
import Diorama.Proofs.Grammar

namespace Diorama

def Text.Solid (s : String) : Prop := s ≠ "" ∧ ∀ c ∈ s.toList, c ∉ blanks

-- The characters of the text are looked through, not all characters that there are.
instance (s : String) : Decidable (Text.Solid s) :=
  have : Decidable (∀ c ∈ s.toList, c ∉ Text.blanks) := List.decidableBAll _ s.toList
  inferInstanceAs (Decidable (_ ∧ _))

-- A text that starts like a word: neither quoted nor a comment, a colour or a number.
def Token.Wordlike (s : String) : Prop :=
  (∀ c ∈ s.toList.head?, c ∉ ['\x22', '\x27', '#']) ∧ looksNumeric (Text.bytes s) = false

instance (s : String) : Decidable (Token.Wordlike s) :=
  have : Decidable (∀ c ∈ s.toList.head?, c ∉ ['\x22', '\x27', '#']) := Option.decidableForallMem s.toList.head?
  inferInstanceAs (Decidable (_ ∧ _))

inductive Datum where
  | string (s : String)
  | symbol (name : String) (solid : Text.Solid name)
  | word (name : String) (solid : Text.Solid name) (wordlike : Token.Wordlike name)
  | number (text : String) (x : Float) (solid : Text.Solid text)
      (numeric : Token.looksNumeric (Text.bytes text) = true) (reads : Decimal.read? text = some x)

namespace Datum

def escape (c : Char) : List Char :=
  if c = '\\' then ['\\', '\\'] else if c = '\x22' then ['\\', '\x22'] else if c = '\n' then ['\\', 'n'] else [c]

def spelled : Datum → String
  | .string s => String.ofList ('\x22' :: s.toList.flatMap escape ++ ['\x22'])
  | .symbol name _ => "'" ++ name
  | .word name _ _ => name
  | .number text _ _ _ _ => text

def line (data : List Datum) : String := " ".intercalate (data.map spelled)

def value : Datum → Value
  | .string s => .string s
  | .symbol name _ => .symbol name
  | .word name _ _ => .word name
  | .number _ x _ _ _ => .number x

def kind : Datum → TokenKind
  | .string s => .string s
  | .symbol name _ => .symbol name
  | .word name _ _ => .word name
  | .number _ x _ _ _ => .number x

theorem literal?_kind {t : Token} {d : Datum} (same : t.kind = d.kind) : Command.literal? t = some d.value := by
  unfold Command.literal?
  rw [same]
  cases d <;> rfl

theorem literals_kind {row : List Token} {data : List Datum} (same : row.map Token.kind = data.map kind) :
    row.filterMap Command.literal? = data.map value := by
  induction data generalizing row with
  | nil =>
    rw [List.map_eq_nil_iff.mp same]
    rfl
  | cons d data ih =>
    obtain ⟨t, row, rfl, first, rest⟩ := List.map_eq_cons_iff.mp same
    rw [List.filterMap_cons_some (literal?_kind first), ih rest]
    rfl

end Datum

namespace Token

variable {b : UInt8} {bs rest : List UInt8} {kind : TokenKind}

def Divided (rest : List UInt8) : Prop := ∀ b ∈ rest.head?, Text.isBlankByte b = true

theorem chunk_divided (unbroken : ∀ b ∈ bs, Text.isBlankByte b = false) (divided : Divided rest) :
    chunk (bs ++ rest) = bs ∧ afterChunk (bs ++ rest) = rest := by
  have inner : ∀ b ∈ bs, (!Text.isBlankByte b) = true := by
    intro b member
    rw [unbroken b member]
    rfl
  unfold chunk afterChunk
  rw [List.takeWhile_append_of_pos inner, List.dropWhile_append_of_pos inner]
  cases rest with
  | nil => simp
  | cons b rest =>
    have blank := divided b rfl
    simp [blank]

theorem item_chunk (unbroken : ∀ b' ∈ b :: bs, Text.isBlankByte b' = false)
    (bare : b ≠ 0x22 ∧ b ≠ 0x27 ∧ b ≠ 0x23) (divided : Divided rest) :
    item b (bs ++ rest) = (.ofChunk (b :: bs), rest) := by
  have inner : ∀ b' ∈ bs, Text.isBlankByte b' = false := fun b' member => unbroken b' (List.mem_cons_of_mem b member)
  obtain ⟨whole, left⟩ := chunk_divided inner divided
  rw [item, if_neg bare.1, if_neg bare.2.1, if_neg bare.2.2, whole, left]

theorem looksNumeric_bare (numeric : looksNumeric (b :: bs) = true) : b ≠ 0x22 ∧ b ≠ 0x27 ∧ b ≠ 0x23 := by
  refine ⟨?_, ?_, ?_⟩ <;> rintro rfl <;> cases numeric

theorem stringBody_quote (rest : List UInt8) : stringBody (0x22 :: rest) = (some [], rest) := by
  rw [stringBody.eq_def]
  rfl

theorem stringBody_plain (plain : ∀ b ∈ bs, b ≠ 0x0a ∧ b ≠ 0x22 ∧ b ≠ 0x5c) :
    stringBody (bs ++ rest) = ((stringBody rest).1.map (bs ++ ·), (stringBody rest).2) := by
  induction bs with
  | nil => simp
  | cons b bs ih =>
    obtain ⟨newline, quote, backslash⟩ := plain b (by simp)
    have later := ih fun b' member => plain b' (by simp [member])
    rw [List.cons_append, stringBody.eq_def]
    simp [newline, quote, backslash, later, Function.comp_def]

theorem plain_bytes {c : Char} (newline : c ≠ '\n') (quote : c ≠ '\x22') (backslash : c ≠ '\\') :
    ∀ b ∈ String.utf8EncodeChar c, b ≠ 0x0a ∧ b ≠ 0x22 ∧ b ≠ 0x5c := by
  intro b member
  refine ⟨?_, ?_, ?_⟩
  · rintro rfl
    exact newline (Char.toNat_inj.mp (Text.ascii_of_mem (by decide) member))
  · rintro rfl
    exact quote (Char.toNat_inj.mp (Text.ascii_of_mem (by decide) member))
  · rintro rfl
    exact backslash (Char.toNat_inj.mp (Text.ascii_of_mem (by decide) member))

theorem stringBody_escape (c : Char) (rest : List UInt8) : stringBody (Text.encoded (Datum.escape c) ++ rest) =
    ((stringBody rest).1.map (String.utf8EncodeChar c ++ ·), (stringBody rest).2) := by
  unfold Datum.escape
  split
  · subst c
    rfl
  · split
    · subst c
      rfl
    · split
      · subst c
        rfl
      · rename_i backslash quote newline
        rw [Text.encoded_cons, Text.encoded, List.flatMap_nil, List.append_nil]
        exact stringBody_plain (plain_bytes newline quote backslash)

theorem stringBody_escaped (cs : List Char) (rest : List UInt8) :
    stringBody (Text.encoded (cs.flatMap Datum.escape) ++ 0x22 :: rest) = (some (Text.encoded cs), rest) := by
  induction cs with
  | nil => exact stringBody_quote rest
  | cons c cs ih =>
    rw [List.flatMap_cons, Text.encoded_append, List.append_assoc, stringBody_escape, ih]
    rfl

theorem entries_token (p : Position) (solid : Text.isBlankByte b = false) (found : item b (bs ++ rest) = (.token kind, rest)) :
    entries p (b :: bs ++ rest) = .ok ⟨kind, Text.decode (b :: bs), p⟩ :: entries (p.after (b :: bs)) rest := by
  have taken : (bs ++ rest).take ((bs ++ rest).length - rest.length) = bs := by
    rw [List.length_append, Nat.add_sub_cancel, List.take_left]
  rw [List.cons_append, entries, solid, found]
  simp only [Bool.false_eq_true, if_false, taken, Item.entry]
  rfl

end Token

namespace Datum

open Token

theorem bytes_solid {s : String} (solid : Text.Solid s) : ∃ b bs, Text.bytes s = b :: bs ∧
    ∀ b' ∈ b :: bs, Text.isBlankByte b' = false := by
  obtain ⟨b, bs, spelled⟩ := List.exists_cons_of_ne_nil (Text.bytes_ne_nil solid.1)
  refine ⟨b, bs, spelled, fun b' member => ?_⟩
  rw [← spelled, Text.bytes_eq] at member
  exact Text.unbroken solid.2 member

theorem wordlike_bare {s : String} {b : UInt8} {bs : List UInt8} (wordlike : Wordlike s)
    (spelled : Text.bytes s = b :: bs) : b ≠ 0x22 ∧ b ≠ 0x27 ∧ b ≠ 0x23 := by
  refine ⟨?_, ?_, ?_⟩ <;> rintro rfl
  · exact wordlike.1 _ (Text.head_of_bytes (by decide) spelled) (by decide)
  · exact wordlike.1 _ (Text.head_of_bytes (by decide) spelled) (by decide)
  · exact wordlike.1 _ (Text.head_of_bytes (by decide) spelled) (by decide)

theorem item_spelled (d : Datum) : ∃ b bs, Text.bytes d.spelled = b :: bs ∧ Text.isBlankByte b = false ∧
    ∀ rest, Divided rest → item b (bs ++ rest) = (.token d.kind, rest) := by
  cases d with
  | string s =>
    refine ⟨0x22, Text.encoded (s.toList.flatMap escape) ++ [0x22], ?_, rfl, ?_⟩
    · rw [spelled, Text.bytes_ofList, List.cons_append, Text.encoded_cons, Text.encoded_append]
      rfl
    · intro rest _
      have body := stringBody_escaped s.toList rest
      rw [List.append_assoc, item, if_pos rfl]
      simp only [List.singleton_append, body, ← Text.bytes_eq, Text.decode_bytes, kind]
  | symbol name solid =>
    obtain ⟨b, bs, spelled, unbroken⟩ := bytes_solid solid
    refine ⟨0x27, b :: bs, ?_, rfl, ?_⟩
    · rw [← spelled, Datum.spelled, Text.bytes_append, Text.bytes_eq "'"]
      rfl
    · intro rest divided
      obtain ⟨whole, left⟩ := chunk_divided unbroken divided
      rw [item, if_neg (by decide), if_pos rfl, whole, left, ← spelled, Text.decode_bytes, spelled]
      rfl
  | word name solid wordlike =>
    obtain ⟨b, bs, spelled, unbroken⟩ := bytes_solid solid
    refine ⟨b, bs, spelled, unbroken b (by simp), fun rest divided => ?_⟩
    rw [item_chunk unbroken (wordlike_bare wordlike spelled) divided, ← spelled, Item.ofChunk, wordlike.2,
      Text.decode_bytes]
    rfl
  | number text x solid numeric reads =>
    obtain ⟨b, bs, spelled, unbroken⟩ := bytes_solid solid
    refine ⟨b, bs, spelled, unbroken b (by simp), fun rest divided => ?_⟩
    rw [item_chunk unbroken (looksNumeric_bare (spelled ▸ numeric)) divided, ← spelled, Item.ofChunk, numeric,
      Text.decode_bytes, reads]
    rfl

def further (data : List Datum) : List UInt8 := data.flatMap fun d => 0x20 :: Text.bytes d.spelled

theorem bytes_line_cons (d : Datum) (data : List Datum) :
    Text.bytes (line (d :: data)) = Text.bytes d.spelled ++ further data := by
  induction data generalizing d with
  | nil => simp [line, further]
  | cons e data ih =>
    have split : line (d :: e :: data) = d.spelled ++ " " ++ line (e :: data) := String.intercalate_cons_cons
    rw [split, Text.bytes_append, Text.bytes_append, ih, List.append_assoc, Text.bytes_eq " "]
    rfl

theorem further_divided (data : List Datum) : Divided (further data) := by
  cases data with
  | nil => nofun
  | cons d data =>
    intro b first
    cases first
    rfl

def Scans (entries : List Entry) (data : List Datum) : Prop :=
  ∃ row finish, entries = (row ++ [finish]).map .ok ∧ row.map Token.kind = data.map kind

theorem scans_spelled (p : Position) (d : Datum) {data : List Datum}
    (later : ∀ p, Scans (entries p (further data)) data) :
    Scans (entries p (Text.bytes d.spelled ++ further data)) (d :: data) := by
  obtain ⟨b, bs, spelled, solid, found⟩ := item_spelled d
  obtain ⟨row, finish, same, kinds⟩ := later (p.after (b :: bs))
  refine ⟨⟨d.kind, Text.decode (b :: bs), p⟩ :: row, finish, ?_, ?_⟩
  · rw [spelled, entries_token p solid (found _ (further_divided data)), same]
    rfl
  · rw [List.map_cons, kinds]
    rfl

theorem scans_further (p : Position) (data : List Datum) : Scans (entries p (further data)) data := by
  induction data generalizing p with
  | nil =>
    refine ⟨[], ⟨.finish, "", p⟩, ?_, rfl⟩
    rw [further, List.flatMap_nil, entries]
    rfl
  | cons d data ih =>
    have space : entries p (further (d :: data)) =
        entries (p.step 0x20) (Text.bytes d.spelled ++ further data) := by
      rw [further, List.flatMap_cons, List.cons_append, entries, if_pos (by decide)]
      rfl
    rw [space]
    exact scans_spelled _ d ih

theorem scans_line (p : Position) (data : List Datum) : Scans (entries p (Text.bytes (line data))) data := by
  cases data with
  | nil =>
    have empty : Text.bytes (line []) = further [] := Text.bytes_eq ""
    rw [empty]
    exact scans_further p []
  | cons d data =>
    rw [bytes_line_cons]
    exact scans_spelled p d fun p => scans_further p data

theorem tokenize_line (n : Nat) (data : List Datum) : ∃ row finish, tokenize n (line data) = .ok (row ++ [finish]) ∧
    row.map Token.kind = data.map kind := by
  obtain ⟨row, finish, same, kinds⟩ := scans_line ⟨n, 1⟩ data
  refine ⟨row, finish, ?_, kinds⟩
  unfold tokenize scan
  rw [same]
  exact collect_ok (row ++ [finish])

end Datum

theorem parseLine_spelled (n : Nat) (data : List Datum)
    (raw : ∀ verb : Verb, data.head?.map Datum.value ≠ some (.word verb.word)) :
    parseLine n (Datum.line data) = .ok (data.map Datum.value) := by
  obtain ⟨row, finish, read, kinds⟩ := Datum.tokenize_line n data
  rw [parseLine_tokens read]
  cases data with
  | nil =>
    rw [List.map_eq_nil_iff.mp kinds]
    rfl
  | cons d data =>
    obtain ⟨head, args, rfl, first, _⟩ := List.map_eq_cons_iff.mp kinds
    have other : ∀ verb : Verb, head.kind ≠ .word verb.word := by
      intro verb word
      have literal := Datum.literal?_kind first
      rw [Command.literal?, word] at literal
      exact raw verb literal.symm
    rw [Command.ofTokens_raw other, Datum.literals_kind kinds]

-- A string may hold the word of a verb, a comment, quotes, backslashes and newlines.
def Datum.Sample.row : List Datum := [.string "add", .string "#\"\\\n\\n é", .symbol "'#\"" (by decide +kernel),
  .word "ä\"#'" (by decide +kernel) (by decide +kernel), .string "",
  .number "-.5e1" (-5) (by decide +kernel) (by decide +kernel) (by decide +kernel)]

theorem parseLine_spelled_row : Datum.line Datum.Sample.row = "\"add\" \"#\\\"\\\\\\n\\\\n é\" ''#\" ä\"#' \"\" -.5e1" ∧
    (∀ verb : Verb, Datum.Sample.row.head?.map Datum.value ≠ some (.word verb.word)) ∧
    parseLine 7 (Datum.line Datum.Sample.row) = .ok (Datum.Sample.row.map Datum.value) := by
  have raw : ∀ verb : Verb, Datum.Sample.row.head?.map Datum.value ≠ some (.word verb.word) := nofun
  exact ⟨by decide +kernel, raw, parseLine_spelled 7 Datum.Sample.row raw⟩

end Diorama
