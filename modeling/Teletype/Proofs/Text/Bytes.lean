import Teletype.Proofs.Text.Searching
import Teletype.Text.Utf8

/-! # Texts as bytes

The bytes of a text are those of its characters, one after the other. A character of ASCII is one byte,
its own number; every byte of any other character is beyond ASCII. -/

namespace Teletype.Text

/-! ### From byte arrays to lists -/

theorem toList_loop (bs : ByteArray) (i : Nat) (acc : List UInt8) :
    ByteArray.toList.loop bs i acc = acc.reverse ++ bs.data.toList.drop i := by
  fun_induction ByteArray.toList.loop bs i acc with
  | case1 i acc hi ih =>
    have hi' : i < bs.data.toList.length := hi
    have hget : bs.get! i = bs.data.toList[i] := by
      rw [ByteArray.get!, getElem!_pos bs.data i hi, Array.getElem_toList]
    rw [ih, hget, List.reverse_cons, List.append_assoc, List.singleton_append, List.getElem_cons_drop]
  | case2 i acc hi =>
    have hi' : bs.data.toList.length ≤ i := Nat.le_of_not_lt hi
    rw [List.drop_eq_nil_of_le hi', List.append_nil]

theorem toList_eq (bs : ByteArray) : bs.toList = bs.data.toList := by
  rw [ByteArray.toList, toList_loop, List.reverse_nil, List.nil_append, List.drop_zero]

/-! ### The bytes of a text -/

theorem utf8_ofList (cs : List Char) : utf8 (String.ofList cs) = cs.flatMap String.utf8EncodeChar := by
  show (List.utf8Encode cs).toList = _
  rw [toList_eq, List.utf8Encode, List.data_toByteArray]

theorem utf8_eq (s : String) : utf8 s = s.toList.flatMap String.utf8EncodeChar := by
  rw [← utf8_ofList, String.ofList_toList]

theorem utf8_append (s t : String) : utf8 (s ++ t) = utf8 s ++ utf8 t := by
  rw [utf8_eq, utf8_eq, utf8_eq, String.toList_append, List.flatMap_append]

/-- A character of ASCII. -/
def isAscii (c : Char) : Prop := c.toNat < 128

instance (c : Char) : Decidable (isAscii c) := inferInstanceAs (Decidable (c.toNat < 128))

theorem utf8EncodeChar_of_isAscii {c : Char} (h : isAscii c) : String.utf8EncodeChar c = [UInt8.ofNat c.toNat] := by
  have hle : c.val.toNat ≤ 127 := Nat.le_of_lt_succ h
  unfold String.utf8EncodeChar
  rw [if_pos hle]
  rfl

theorem toNat_ofNat {n : Nat} (h : n < 256) : (UInt8.ofNat n).toNat = n := UInt8.toNat_ofNat_of_lt' h

theorem le_toNat_ofNat {n : Nat} (hlow : 128 ≤ n) (hhigh : n < 256) : 128 ≤ (UInt8.ofNat n).toNat := by
  rw [toNat_ofNat hhigh]
  exact hlow

theorem le_of_mem_utf8EncodeChar {c : Char} (h : ¬isAscii c) {b : UInt8} (hb : b ∈ String.utf8EncodeChar c) :
    128 ≤ b.toNat := by
  have hc : ¬c.val.toNat ≤ 127 := fun hle => h (Nat.lt_succ_of_le hle)
  unfold String.utf8EncodeChar at hb
  dsimp only at hb
  rw [if_neg hc] at hb
  split at hb
  · simp only [List.mem_cons, List.not_mem_nil, or_false] at hb
    rcases hb with rfl | rfl <;> exact le_toNat_ofNat (by omega) (by omega)
  · split at hb
    · simp only [List.mem_cons, List.not_mem_nil, or_false] at hb
      rcases hb with rfl | rfl | rfl <;> exact le_toNat_ofNat (by omega) (by omega)
    · simp only [List.mem_cons, List.not_mem_nil, or_false] at hb
      rcases hb with rfl | rfl | rfl | rfl <;> exact le_toNat_ofNat (by omega) (by omega)

theorem ofNat_toNat_inj {c d : Char} (hc : isAscii c) (hd : isAscii d)
    (h : UInt8.ofNat c.toNat = UInt8.ofNat d.toNat) : c = d := by
  unfold isAscii at hc hd
  have hn := congrArg UInt8.toNat h
  rw [toNat_ofNat (by omega), toNat_ofNat (by omega)] at hn
  exact Char.toNat_inj.mp hn

/-- Characters of ASCII are the plain ones when a text is written in bytes. -/
theorem asciiWriting : Writing String.utf8EncodeChar (fun c => UInt8.ofNat c.toNat) isAscii where
  kept := utf8EncodeChar_of_isAscii
  inj := ofNat_toNat_inj
  other := fun ha x hx b hb heq => by
    have hx := le_of_mem_utf8EncodeChar ha hx
    unfold isAscii at hb
    rw [heq, toNat_ofNat (by omega)] at hx
    omega
  ne_nil := fun _ => String.utf8EncodeChar_ne_nil

theorem utf8_of_isAscii {s : String} (h : ∀ c ∈ s.toList, isAscii c) :
    utf8 s = s.toList.map fun c => UInt8.ofNat c.toNat := by
  rw [utf8_eq]
  generalize s.toList = cs at h
  induction cs with
  | nil => rfl
  | cons c cs ih =>
    rw [List.flatMap_cons, utf8EncodeChar_of_isAscii (h c List.mem_cons_self),
      ih fun d hd => h d (List.mem_cons_of_mem c hd)]
    rfl

theorem decodeFrom_of_isAscii : ∀ (cs before : List Char) (offset : Nat), (∀ c ∈ cs, isAscii c) →
    Utf8.decodeFrom offset before (cs.map fun c => UInt8.ofNat c.toNat) = .ok (before.reverse ++ cs)
  | [], before, offset, _ => by simp [Utf8.decodeFrom]
  | c :: cs, before, offset, h => by
    have hc : c.toNat < 128 := h c List.mem_cons_self
    have hn : (UInt8.ofNat c.toNat).toNat = c.toNat := toNat_ofNat (by omega)
    have hlow : UInt8.ofNat c.toNat < 0x80 := by
      rw [UInt8.lt_iff_toNat_lt, hn]
      exact hc
    rw [List.map_cons, Utf8.decodeFrom, if_pos hlow, hn, Char.ofNat_toNat,
      decodeFrom_of_isAscii cs (c :: before) (offset + 1) fun d hd => h d (List.mem_cons_of_mem c hd)]
    simp

/-- A text of ASCII is read back from its bytes. -/
theorem decode_utf8 {s : String} (h : ∀ c ∈ s.toList, isAscii c) : Utf8.decode (utf8 s) = .ok s.toList := by
  rw [utf8_of_isAscii h, Utf8.decode, decodeFrom_of_isAscii _ [] 0 h, List.reverse_nil, List.nil_append]

end Teletype.Text
