import Diorama.Text.Blank
import Diorama.Text.Utf8
import Mathlib.Data.List.Basic

namespace Diorama.Text

variable {s t : String} {c : Char} {cs : List Char} {b : UInt8}

def encoded (cs : List Char) : List UInt8 := cs.flatMap String.utf8EncodeChar

theorem encoded_cons (c : Char) (cs : List Char) : encoded (c :: cs) = String.utf8EncodeChar c ++ encoded cs := rfl

theorem encoded_append (cs ds : List Char) : encoded (cs ++ ds) = encoded cs ++ encoded ds := List.flatMap_append

theorem toList_loop (bs : ByteArray) (i : Nat) (taken : List UInt8) :
    ByteArray.toList.loop bs i taken = taken.reverse ++ bs.data.toList.drop i := by
  fun_induction ByteArray.toList.loop bs i taken with
  | case1 i taken inside ih =>
    have inner : i < bs.data.size := inside
    have found : bs.get! i = bs.data[i] := getElem!_pos bs.data i inner
    rw [ih, List.drop_eq_getElem_cons inner, found]
    simp
  | case2 i taken outside =>
    have beyond : bs.data.toList.length ≤ i := Nat.le_of_not_lt outside
    simp [List.drop_eq_nil_of_le beyond]

theorem toList_data (bs : ByteArray) : bs.toList = bs.data.toList := by
  unfold ByteArray.toList
  rw [toList_loop]
  rfl

theorem bytes_eq (s : String) : bytes s = encoded s.toList := by
  have all : s.toUTF8 = (encoded s.toList).toByteArray := by
    conv_lhs => rw [← String.ofList_toList (s := s)]
    exact String.toByteArray_ofList
  unfold bytes
  rw [toList_data, all, List.toList_data_toByteArray]

theorem bytes_ofList (cs : List Char) : bytes (String.ofList cs) = encoded cs := by
  rw [bytes_eq, String.toList_ofList]

theorem bytes_append (s t : String) : bytes (s ++ t) = bytes s ++ bytes t := by
  rw [bytes_eq, bytes_eq, bytes_eq, String.toList_append, encoded_append]

theorem bytes_ne_nil (filled : s ≠ "") : bytes s ≠ [] := by
  intro empty
  refine filled (String.toList_inj.mp (List.eq_nil_iff_forall_not_mem.mpr fun c member => ?_))
  rw [bytes_eq] at empty
  exact String.utf8EncodeChar_ne_nil (List.flatMap_eq_nil_iff.mp empty c member)

theorem decode?_bytes (s : String) : decode? (bytes s) = some s := by
  have same : (⟨(bytes s).toArray⟩ : ByteArray) = s.toByteArray := by
    unfold bytes
    rw [toList_data]
    rfl
  unfold decode?
  rw [same, String.fromUTF8?, dif_pos s.isValidUTF8]
  rfl

theorem decode_bytes (s : String) : decode (bytes s) = s := by
  unfold decode
  rw [decode?_bytes]
  rfl

theorem ascii_of_mem (small : b < 0x80) (member : b ∈ String.utf8EncodeChar c) : c.toNat = b.toNat := by
  -- a byte of the ASCII range stands for itself: every byte of a longer character lies beyond it
  have below : b.toNat < 128 := small
  have same : c.val.toNat = c.toNat := rfl
  unfold String.utf8EncodeChar at member
  dsimp only at member
  split at member
  · rw [List.mem_singleton, ← UInt8.toNat_inj, UInt8.toNat_ofNat'] at member
    omega
  · exfalso
    split at member
    · simp [← UInt8.toNat_inj] at member
      omega
    · split at member
      · simp [← UInt8.toNat_inj] at member
        omega
      · simp [← UInt8.toNat_inj] at member
        omega

theorem mem_of_mem_encoded (small : b < 0x80) (member : b ∈ encoded cs) : Char.ofNat b.toNat ∈ cs := by
  obtain ⟨c, present, spelled⟩ := List.mem_flatMap.mp member
  rw [← ascii_of_mem small spelled, Char.ofNat_toNat]
  exact present

theorem head_of_bytes {bs : List UInt8} (small : b < 0x80) (spelled : bytes s = b :: bs) :
    s.toList.head? = some (Char.ofNat b.toNat) := by
  rw [bytes_eq] at spelled
  cases characters : s.toList with
  | nil =>
    rw [characters] at spelled
    cases spelled
  | cons c cs =>
    rw [characters, encoded_cons] at spelled
    have member : b ∈ String.utf8EncodeChar c := by
      cases own : String.utf8EncodeChar c with
      | nil => exact absurd own String.utf8EncodeChar_ne_nil
      | cons first others =>
        rw [own] at spelled
        cases spelled
        exact List.mem_cons_self
    rw [← ascii_of_mem small member, Char.ofNat_toNat]
    rfl

def blanks : List Char := [' ', '\t', '\n', '\x0c', '\r']

theorem blank_ascii (blank : isBlankByte b = true) : b < 0x80 ∧ Char.ofNat b.toNat ∈ blanks := by
  simp only [isBlankByte, Bool.or_eq_true, beq_iff_eq] at blank
  rcases blank with (((rfl | rfl) | rfl) | rfl) | rfl <;> decide

theorem unbroken (solid : ∀ c ∈ cs, c ∉ blanks) (member : b ∈ encoded cs) : isBlankByte b = false := by
  by_contra blank
  obtain ⟨small, among⟩ := blank_ascii (eq_true_of_ne_false blank)
  exact solid _ (mem_of_mem_encoded small member) among

end Diorama.Text
