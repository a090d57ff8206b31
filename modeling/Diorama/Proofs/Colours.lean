import Diorama.Colour
import Mathlib.Data.List.TakeWhile

namespace Diorama

namespace Text

variable {cs text before after : List Char}

structure Stripped (cs text : List Char) : Prop where
  around : ∃ before after, cs = before ++ text ++ after ∧ (∀ c ∈ before, isBlank c = true) ∧ ∀ c ∈ after, isBlank c = true
  first : ∀ c, text.head? = some c → isBlank c = false
  last : ∀ c, text.getLast? = some c → isBlank c = false

theorem dropWhile_blank (bare : ∀ c, text.head? = some c → isBlank c = false) : text.dropWhile isBlank = text := by
  cases text with
  | nil => rfl
  | cons c rest => rw [List.dropWhile_cons_of_neg (by simp [bare c rfl])]

theorem bare_dropWhile (cs : List Char) : ∀ c, (cs.dropWhile isBlank).head? = some c → isBlank c = false := by
  intro c first
  have bare := List.head?_dropWhile_not isBlank cs
  rw [first] at bare
  exact bare

theorem trimmed_around (blank : ∀ c ∈ before, isBlank c = true) (blank' : ∀ c ∈ after, isBlank c = true)
    (first : ∀ c, text.head? = some c → isBlank c = false) (last : ∀ c, text.getLast? = some c → isBlank c = false) :
    trimmed (before ++ text ++ after) = text := by
  unfold trimmed
  rw [List.append_assoc, List.dropWhile_append_of_pos blank]
  cases text with
  | nil => simp [List.dropWhile_eq_nil_iff.mpr blank']
  | cons c rest =>
    have front : (c :: rest ++ after).dropWhile isBlank = c :: rest ++ after := dropWhile_blank first
    have back : (c :: rest).reverse.dropWhile isBlank = (c :: rest).reverse :=
      dropWhile_blank fun d found => last d (List.head?_reverse.symm.trans found)
    have blank'' : ∀ d ∈ after.reverse, isBlank d = true := fun d member => blank' d (List.mem_reverse.mp member)
    rw [front, List.reverse_append, List.dropWhile_append_of_pos blank'', back, List.reverse_reverse]

theorem stripped_trimmed (cs : List Char) : Stripped cs (trimmed cs) := by
  let rest := cs.dropWhile isBlank
  have split : trimmed cs ++ (rest.reverse.takeWhile isBlank).reverse = rest := by
    unfold trimmed
    rw [← List.reverse_append, List.takeWhile_append_dropWhile, List.reverse_reverse]
  refine ⟨⟨cs.takeWhile isBlank, (rest.reverse.takeWhile isBlank).reverse, ?_, ?_, ?_⟩, ?_, ?_⟩
  · rw [List.append_assoc, split, List.takeWhile_append_dropWhile]
  · exact fun c => List.mem_takeWhile_imp
  · exact fun c member => List.mem_takeWhile_imp (List.mem_reverse.mp member)
  · intro c first
    refine bare_dropWhile cs c ?_
    change rest.head? = some c
    rw [← split, List.head?_append, first]
    rfl
  · intro c last
    unfold trimmed at last
    rw [List.getLast?_reverse] at last
    exact bare_dropWhile _ c last

theorem stripped_iff : Stripped cs text ↔ trimmed cs = text := by
  constructor
  · rintro ⟨⟨before, after, rfl, blank, blank'⟩, first, last⟩
    exact trimmed_around blank blank' first last
  · rintro rfl
    exact stripped_trimmed cs

theorem Stripped.mem_iff {c : Char} (stripped : Stripped cs text) (solid : isBlank c = false) : c ∈ text ↔ c ∈ cs := by
  obtain ⟨before, after, rfl, blank, blank'⟩ := stripped.around
  have apart : c ∉ before := fun member => by simp [blank c member] at solid
  have apart' : c ∉ after := fun member => by simp [blank' c member] at solid
  simp [apart, apart']

end Text

namespace Colour

variable {c d : Char} {value : Nat} {channel : UInt8} {name : String} {colour : Colour} {text digits : List Char}
  {s : String}

def hexadecimal : List Char := "0123456789abcdef".toList

def Digit (c : Char) (value : Nat) : Prop := hexadecimal[value]? = some c.toLower

instance : Decidable (Digit c value) := inferInstanceAs (Decidable (_ = _))

def Pair (c d : Char) (channel : UInt8) : Prop :=
  ∃ high low, Digit c high ∧ Digit d low ∧ channel.toNat = 16 * high + low

-- A plus sign and a digit.
def Signed (c d : Char) (channel : UInt8) : Prop := c = '+' ∧ Digit d channel.toNat

def Channel (c d : Char) (channel : UInt8) : Prop := Pair c d channel ∨ Signed c d channel

theorem ascii_of_lower (low : c.toLower.toNat < 128) : c.toNat < 128 := by
  unfold Char.toLower at low
  split at low
  · rename_i upper
    have bound : c.val.toNat ≤ 'Z'.val.toNat := upper.2
    exact Nat.lt_of_le_of_lt bound (by decide)
  · exact low

theorem Digit.bounds (digit : Digit c value) : c.toNat < 128 ∧ value < 16 := by
  have ascii : hexadecimal.all (fun d => d.toNat < 128) = true := by decide
  have member : c.toLower ∈ hexadecimal := List.mem_of_getElem? digit
  have small := List.all_eq_true.mp ascii _ member
  exact ⟨ascii_of_lower (of_decide_eq_true small), (List.getElem?_eq_some_iff.mp digit).1⟩

theorem hexDigit?_bounds (read : hexDigit? c = some value) : c.toNat < 128 ∧ value < 16 := by
  have upTo (low top : Char) (between : (decide (low ≤ c) && decide (c ≤ top)) = true) : c.toNat ≤ top.toNat :=
    of_decide_eq_true (Bool.and_eq_true_iff.mp between).2
  unfold hexDigit? at read
  split at read
  · rename_i digit
    have bound : c.toNat ≤ 57 := upTo '0' '9' digit
    cases read
    change _ ∧ c.toNat - 48 < 16
    omega
  · split at read
    · rename_i lower
      have bound : c.toNat ≤ 102 := upTo 'a' 'f' lower
      cases read
      change _ ∧ c.toNat - 97 + 10 < 16
      omega
    · split at read
      · rename_i upper
        have bound : c.toNat ≤ 70 := upTo 'A' 'F' upper
        cases read
        change _ ∧ c.toNat - 65 + 10 < 16
        omega
      · cases read

theorem hexDigit?_iff : hexDigit? c = some value ↔ Digit c value := by
  -- both sides say nothing of a character that is not ASCII, and the others are few
  have few : ∀ n < 128, ∀ v < 16, hexDigit? (Char.ofNat n) = some v ↔ Digit (Char.ofNat n) v := by decide +kernel
  have small (low : c.toNat < 128) (short : value < 16) : hexDigit? c = some value ↔ Digit c value := by
    have same := few c.toNat low value short
    rw [Char.ofNat_toNat] at same
    exact same
  constructor
  · intro read
    obtain ⟨low, short⟩ := hexDigit?_bounds read
    exact (small low short).mp read
  · intro digit
    obtain ⟨low, short⟩ := digit.bounds
    exact (small low short).mpr digit

theorem not_digit_plus (value : Nat) : ¬ Digit '+' value := by
  intro digit
  have none : hexDigit? '+' = none := by decide
  cases none.symm.trans (hexDigit?_iff.mpr digit)

theorem ofNat_eq_iff (small : value < 256) : UInt8.ofNat value = channel ↔ channel.toNat = value := by
  constructor
  · rintro rfl
    exact UInt8.toNat_ofNat_of_lt' small
  · rintro rfl
    exact UInt8.ofNat_toNat

theorem hexPair?_plus : hexPair? '+' d = some channel ↔ Digit d channel.toNat := by
  constructor
  · intro read
    obtain ⟨low, digit, value⟩ : ∃ low, hexDigit? d = some low ∧ UInt8.ofNat low = channel := by
      simpa [hexPair?, Option.bind_eq_some_iff] using read
    have small := (hexDigit?_bounds digit).2
    rw [(ofNat_eq_iff (by omega)).mp value]
    exact hexDigit?_iff.mp digit
  · intro digit
    simp [hexPair?, hexDigit?_iff.mpr digit]

theorem hexPair?_digits (unsigned : c ≠ '+') : hexPair? c d = some channel ↔ Pair c d channel := by
  constructor
  · intro read
    obtain ⟨high, first, low, second, value⟩ : ∃ high, hexDigit? c = some high ∧ ∃ low, hexDigit? d = some low ∧
        UInt8.ofNat (16 * high + low) = channel := by
      simpa [hexPair?, unsigned, Option.bind_eq_some_iff] using read
    have small := (hexDigit?_bounds first).2
    have small' := (hexDigit?_bounds second).2
    exact ⟨high, low, hexDigit?_iff.mp first, hexDigit?_iff.mp second, (ofNat_eq_iff (by omega)).mp value⟩
  · rintro ⟨high, low, first, second, value⟩
    have small := first.bounds.2
    have small' := second.bounds.2
    have same : UInt8.ofNat (16 * high + low) = channel := (ofNat_eq_iff (by omega)).mpr value
    simp only [hexPair?, if_neg unsigned, hexDigit?_iff.mpr first, hexDigit?_iff.mpr second]
    exact congrArg some same

theorem hexPair?_iff : hexPair? c d = some channel ↔ Channel c d channel := by
  unfold Channel Signed
  by_cases plus : c = '+'
  · subst plus
    have unpaired : ¬ Pair '+' d channel := by
      rintro ⟨high, _, digit, _⟩
      exact not_digit_plus high digit
    rw [hexPair?_plus, or_iff_right unpaired, and_iff_right rfl]
  · rw [hexPair?_digits plus, or_iff_left fun signed => plus signed.1]

def palette : List (String × Colour) := [("black", black), ("white", white), ("red", rgb 255 0 0), ("green", rgb 0 128 0),
  ("lime", rgb 0 255 0), ("blue", rgb 0 0 255), ("yellow", rgb 255 255 0), ("orange", rgb 255 165 0),
  ("purple", rgb 128 0 128), ("pink", rgb 255 192 203), ("brown", rgb 165 42 42), ("cyan", rgb 0 255 255),
  ("magenta", rgb 255 0 255), ("gray", rgb 128 128 128), ("grey", rgb 128 128 128), ("none", transparent),
  ("transparent", transparent)]

theorem ofName?_iff : ofName? name = some colour ↔ (name, colour) ∈ palette := by
  constructor
  · intro read
    unfold ofName? at read
    split at read <;> cases read <;> simp [palette]
  · have all : ∀ entry ∈ palette, ofName? entry.1 = some entry.2 := by decide +kernel
    exact fun listed => all (name, colour) listed

-- A text that stands for a colour, given how two characters stand for a channel.
inductive Written (channel : Char → Char → UInt8 → Prop) : List Char → Colour → Prop where
  | name {text : List Char} {name : String} {colour : Colour} : (name, colour) ∈ palette →
      text.map Char.toLower = name.toList → Written channel text colour
  | six {r r' g g' b b' : Char} {red green blue : UInt8} : channel r r' red → channel g g' green →
      channel b b' blue → Written channel ['#', r, r', g, g', b, b'] ⟨red, green, blue, 255⟩
  | eight {r r' g g' b b' a a' : Char} {red green blue alpha : UInt8} : channel r r' red → channel g g' green →
      channel b b' blue → channel a a' alpha → Written channel ['#', r, r', g, g', b, b', a, a'] ⟨red, green, blue, alpha⟩

theorem palette_plain : ∀ entry ∈ palette, '#' ∉ entry.1.toList ∧ '+' ∉ entry.1.toList := by decide +kernel

theorem ofHex?_iff : ofHex? digits = some colour ↔ Written Channel ('#' :: digits) colour := by
  constructor
  · intro read
    unfold ofHex? at read
    split at read
    · obtain ⟨red, first, green, second, blue, third, rfl⟩ := by simpa [Option.bind_eq_some_iff] using read
      exact .six (hexPair?_iff.mp first) (hexPair?_iff.mp second) (hexPair?_iff.mp third)
    · obtain ⟨red, first, green, second, blue, third, alpha, fourth, rfl⟩ := by
        simpa [Option.bind_eq_some_iff] using read
      exact .eight (hexPair?_iff.mp first) (hexPair?_iff.mp second) (hexPair?_iff.mp third) (hexPair?_iff.mp fourth)
    · cases read
  · intro written
    cases written with
    | @name _ name _ listed same =>
      have first : '#' ∈ name.toList := by
        rw [← same]
        exact List.mem_cons_self
      exact absurd first (palette_plain _ listed).1
    | six red green blue => simp [ofHex?, hexPair?_iff.mpr red, hexPair?_iff.mpr green, hexPair?_iff.mpr blue]
    | eight red green blue alpha =>
      simp [ofHex?, hexPair?_iff.mpr red, hexPair?_iff.mpr green, hexPair?_iff.mpr blue, hexPair?_iff.mpr alpha]

theorem parse?_iff : parse? s = some colour ↔ Written Channel (Text.trimmed s.toList) colour := by
  unfold parse?
  split
  · rename_i digits found
    rw [found]
    exact ofHex?_iff
  · rename_i text plain
    rw [ofName?_iff]
    constructor
    · exact fun listed => .name listed String.toList_ofList.symm
    · intro written
      generalize found : Text.trimmed s.toList = text at written
      cases written with
      | @name _ name _ listed same =>
        rw [same, String.ofList_toList]
        exact listed
      | six => exact absurd found (plain _)
      | eight => exact absurd found (plain _)

theorem Channel.pair (read : Channel c d channel) (unsigned : c ≠ '+') : Pair c d channel :=
  read.resolve_right fun signed => unsigned signed.1

theorem Pair.unsigned (pair : Pair c d channel) : c ≠ '+' ∧ d ≠ '+' := by
  obtain ⟨high, low, first, second, _⟩ := pair
  constructor
  · rintro rfl
    exact not_digit_plus high first
  · rintro rfl
    exact not_digit_plus low second

theorem written_pair_iff : Written Pair text colour ↔ Written Channel text colour ∧ '+' ∉ text := by
  constructor
  · intro written
    cases written with
    | @name _ name _ listed same =>
      refine ⟨.name listed same, fun plus => (palette_plain _ listed).2 ?_⟩
      rw [← same]
      exact List.mem_map.mpr ⟨'+', plus, rfl⟩
    | six red green blue =>
      refine ⟨.six (.inl red) (.inl green) (.inl blue), ?_⟩
      simp [red.unsigned.1.symm, red.unsigned.2.symm, green.unsigned.1.symm, green.unsigned.2.symm, blue.unsigned.1.symm,
        blue.unsigned.2.symm]
    | eight red green blue alpha =>
      refine ⟨.eight (.inl red) (.inl green) (.inl blue) (.inl alpha), ?_⟩
      simp [red.unsigned.1.symm, red.unsigned.2.symm, green.unsigned.1.symm, green.unsigned.2.symm, blue.unsigned.1.symm,
        blue.unsigned.2.symm, alpha.unsigned.1.symm, alpha.unsigned.2.symm]
  · rintro ⟨written, unsigned⟩
    cases written with
    | name listed same => exact .name listed same
    | six red green blue =>
      simp only [List.mem_cons, not_or] at unsigned
      exact .six (red.pair (Ne.symm unsigned.2.1)) (green.pair (Ne.symm unsigned.2.2.2.1))
        (blue.pair (Ne.symm unsigned.2.2.2.2.2.1))
    | eight red green blue alpha =>
      simp only [List.mem_cons, not_or] at unsigned
      exact .eight (red.pair (Ne.symm unsigned.2.1)) (green.pair (Ne.symm unsigned.2.2.2.1))
        (blue.pair (Ne.symm unsigned.2.2.2.2.2.1)) (alpha.pair (Ne.symm unsigned.2.2.2.2.2.2.2.1))

theorem parse_exact (s : String) :
    (∀ colour, parse? s = some colour ↔ ∃ text, Text.Stripped s.toList text ∧ Written Channel text colour) ∧
      ((∀ colour, parse? s = some colour ↔ ∃ text, Text.Stripped s.toList text ∧ Written Pair text colour) ↔
        ¬ ((parse? s).isSome = true ∧ '+' ∈ s.toList)) := by
  have plus : '+' ∈ Text.trimmed s.toList ↔ '+' ∈ s.toList := (Text.stripped_trimmed s.toList).mem_iff (by decide)
  have core (written : List Char → Prop) :
      (∃ text, Text.Stripped s.toList text ∧ written text) ↔ written (Text.trimmed s.toList) := by
    simp [Text.stripped_iff]
  have digits (colour : Colour) : (∃ text, Text.Stripped s.toList text ∧ Written Pair text colour) ↔
      parse? s = some colour ∧ '+' ∉ s.toList := by
    rw [core (Written Pair · colour), written_pair_iff, ← parse?_iff, plus]
  refine ⟨fun colour => parse?_iff.trans (core (Written Channel · colour)).symm, ?_⟩
  simp only [digits]
  constructor
  · rintro all ⟨read, signed⟩
    obtain ⟨colour, found⟩ := Option.isSome_iff_exists.mp read
    exact ((all colour).mp found).2 signed
  · intro unsigned colour
    refine (and_iff_left_of_imp fun found signed => ?_).symm
    exact unsigned ⟨Option.isSome_iff_exists.mpr ⟨colour, found⟩, signed⟩

theorem plus_read_as_digit : parse? "#+f+f+f" = some (rgb 15 15 15) ∧
    ¬ ∃ text colour, Text.Stripped "#+f+f+f".toList text ∧ Written Pair text colour := by
  refine ⟨by decide +kernel, ?_⟩
  rintro ⟨text, colour, stripped, written⟩
  have signed : '+' ∈ text := (stripped.mem_iff (by decide)).mpr (by decide +kernel)
  exact (written_pair_iff.mp written).2 signed

end Colour
end Diorama
