import Mathlib.Data.List.Basic
import SchemaCompiler.Text.Utf8

/-!
Bytes that are UTF-8. A sequence of bytes has no fault exactly when it is the encoding of a text.
-/
namespace SchemaCompiler.Text

variable {b : UInt8} {bytes sequence rest : List UInt8} {position : Nat} {c : Char}

def InRange (range : UInt8 × UInt8) (b : UInt8) : Prop :=
  range.1.toNat ≤ b.toNat ∧ b.toNat ≤ range.2.toNat

theorem inRange_iff {range : UInt8 × UInt8} :
    InRange range b ↔ ¬ (b < range.1 || range.2 < b) = true := by
  simp only [InRange, Bool.or_eq_true, decide_eq_true_eq, UInt8.lt_iff_toNat_lt]
  omega

theorem inRange_tail : InRange (0x80, 0xbf) b ↔ 0x80 ≤ b.toNat ∧ b.toNat ≤ 0xbf := Iff.rfl

/-- The bytes of one character, by the ranges that they may come from. -/
inductive IsSequence : List UInt8 → Prop
  | short (b : UInt8) (hfirst : followers? b = some 0) : IsSequence [b]
  | long (b second : UInt8) (tails : List UInt8) (hfirst : followers? b = some (tails.length + 1))
      (hsecond : InRange (secondByte b) second) (htails : ∀ t ∈ tails, InRange (0x80, 0xbf) t) :
      IsSequence (b :: second :: tails)

theorem faultFrom_tails {start length : Nat} {byte : UInt8} {range : UInt8 × UInt8}
    {tails : List UInt8} (hb : InRange range b) (htails : ∀ t ∈ tails, InRange (0x80, 0xbf) t) :
    utf8FaultFrom position (some ⟨start, byte, length, tails.length + 1, range⟩)
        (b :: tails ++ rest) = utf8FaultFrom (position + (tails.length + 1)) none rest := by
  induction tails generalizing position length range b with
  | nil =>
    rw [List.cons_append, utf8FaultFrom, if_neg (inRange_iff.mp hb)]
    exact if_pos (Nat.le_refl 1)
  | cons t tails ih =>
    obtain ⟨ht, htails⟩ := List.forall_mem_cons.mp htails
    have hmore : ¬ tails.length + 1 + 1 ≤ 1 := by omega
    rw [List.cons_append, utf8FaultFrom, if_neg (inRange_iff.mp hb)]
    dsimp only [List.length_cons]
    rw [if_neg hmore]
    refine (ih ht htails).trans ?_
    rw [Nat.add_assoc, Nat.add_comm 1]

/-- A sequence that is begun has no fault only if all bytes that it needs follow. -/
theorem exists_tails {start length left : Nat} {byte : UInt8} {range : UInt8 × UInt8}
    (h : utf8FaultFrom position (some ⟨start, byte, length, left + 1, range⟩) bytes = none) :
    ∃ b tails rest, bytes = b :: tails ++ rest ∧ tails.length = left ∧ InRange range b ∧
      ∀ t ∈ tails, InRange (0x80, 0xbf) t := by
  induction left generalizing position length range bytes with
  | zero =>
    cases bytes with
    | nil => cases h
    | cons b rest =>
      rw [utf8FaultFrom] at h
      split at h
      · cases h
      · next hrange => exact ⟨b, [], rest, rfl, rfl, inRange_iff.mpr hrange, nofun⟩
  | succ left ih =>
    cases bytes with
    | nil => cases h
    | cons b rest =>
      rw [utf8FaultFrom] at h
      split at h
      · cases h
      · next hrange =>
        have hmore : ¬ left + 1 + 1 ≤ 1 := by omega
        rw [if_neg hmore] at h
        obtain ⟨t, tails, rest, rfl, rfl, ht, htails⟩ := ih h
        exact ⟨b, t :: tails, rest, rfl, rfl, inRange_iff.mpr hrange,
          List.forall_mem_cons.mpr ⟨ht, htails⟩⟩

/-- The bytes of a character are read through. -/
theorem faultFrom_sequence (h : IsSequence sequence) :
    utf8FaultFrom position none (sequence ++ rest) =
      utf8FaultFrom (position + sequence.length) none rest := by
  cases h with
  | short b hfirst =>
    rw [List.singleton_append, utf8FaultFrom, hfirst]
    rfl
  | long b second tails hfirst hsecond htails =>
    rw [List.cons_append, utf8FaultFrom, hfirst]
    refine (faultFrom_tails hsecond htails).trans ?_
    rw [Nat.add_assoc, Nat.add_comm 1]
    rfl

/-- Bytes without a fault start with those of a character. -/
theorem exists_sequence (h : utf8FaultFrom position none (b :: bytes) = none) :
    ∃ sequence rest, b :: bytes = sequence ++ rest ∧ IsSequence sequence := by
  rw [utf8FaultFrom] at h
  split at h
  · cases h
  · next hfirst => exact ⟨[b], bytes, rfl, .short b hfirst⟩
  · next left hmore hfirst =>
    obtain ⟨left, rfl⟩ := Nat.exists_eq_succ_of_ne_zero hmore
    obtain ⟨second, tails, rest, rfl, rfl, hsecond, htails⟩ := exists_tails h
    exact ⟨b :: second :: tails, rest, rfl, .long b second tails hfirst hsecond htails⟩

theorem followers?_eq (b : UInt8) : followers? b =
    if b.toNat < 0x80 then some 0
    else if b.toNat < 0xc2 then none
    else if b.toNat < 0xe0 then some 1
    else if b.toNat < 0xf0 then some 2
    else if b.toNat < 0xf5 then some 3
    else none := by
  simp only [followers?, UInt8.lt_iff_toNat_lt]
  rfl

theorem inRange_secondByte {second : UInt8} : InRange (secondByte b) second ↔
    (0x80 ≤ second.toNat ∧ second.toNat ≤ 0xbf) ∧
      (b.toNat = 0xe0 → 0xa0 ≤ second.toNat) ∧ (b.toNat = 0xed → second.toNat ≤ 0x9f) ∧
      (b.toNat = 0xf0 → 0x90 ≤ second.toNat) ∧ (b.toNat = 0xf4 → second.toNat ≤ 0x8f) := by
  have hbyte : ∀ n : UInt8, (b == n) = true ↔ b.toNat = n.toNat := fun n => by
    rw [beq_iff_eq, UInt8.toNat_inj]
  rw [InRange, secondByte]
  simp only [hbyte, UInt8.reduceToNat]
  split_ifs
  all_goals
    simp only [UInt8.reduceToNat]
    omega

theorem exists_char {v : Nat} (h : v.isValidChar) : ∃ c : Char, c.toNat = v :=
  ⟨Char.ofNatAux v h, rfl⟩

theorem followers?_eq_zero : followers? b = some 0 ↔ b.toNat < 0x80 := by
  rw [followers?_eq]
  split_ifs <;> simp <;> omega

theorem followers?_eq_one : followers? b = some 1 ↔ 0xc2 ≤ b.toNat ∧ b.toNat < 0xe0 := by
  rw [followers?_eq]
  split_ifs <;> simp <;> omega

theorem followers?_eq_two : followers? b = some 2 ↔ 0xe0 ≤ b.toNat ∧ b.toNat < 0xf0 := by
  rw [followers?_eq]
  split_ifs <;> simp <;> omega

theorem followers?_eq_three : followers? b = some 3 ↔ 0xf0 ≤ b.toNat ∧ b.toNat < 0xf5 := by
  rw [followers?_eq]
  split_ifs <;> simp <;> omega

theorem followers?_le {n : Nat} (h : followers? b = some n) : n ≤ 3 := by
  rw [followers?_eq] at h
  split_ifs at h <;> simp at h <;> omega

section Encoding

theorem encode_one (h : c.toNat < 0x80) :
    String.utf8EncodeChar c = [UInt8.ofNat c.toNat] := by
  rw [String.utf8EncodeChar]
  exact if_pos (by change c.toNat ≤ _; omega)

theorem encode_two (hlow : 0x80 ≤ c.toNat) (hhigh : c.toNat < 0x800) :
    String.utf8EncodeChar c =
      [UInt8.ofNat (c.toNat / 64 % 0x20 + 0xc0), UInt8.ofNat (c.toNat % 0x40 + 0x80)] := by
  rw [String.utf8EncodeChar]
  change (if c.toNat ≤ 0x7f then _ else if c.toNat ≤ 0x7ff then _ else _) = _
  rw [if_neg (by omega), if_pos (by omega)]
  rfl

theorem encode_three (hlow : 0x800 ≤ c.toNat) (hhigh : c.toNat < 0x10000) :
    String.utf8EncodeChar c =
      [UInt8.ofNat (c.toNat / 4096 % 0x10 + 0xe0), UInt8.ofNat (c.toNat / 64 % 0x40 + 0x80),
        UInt8.ofNat (c.toNat % 0x40 + 0x80)] := by
  rw [String.utf8EncodeChar]
  change (if c.toNat ≤ 0x7f then _ else if c.toNat ≤ 0x7ff then _ else
    if c.toNat ≤ 0xffff then _ else _) = _
  rw [if_neg (by omega), if_neg (by omega), if_pos (by omega)]
  rfl

theorem encode_four (hlow : 0x10000 ≤ c.toNat) :
    String.utf8EncodeChar c =
      [UInt8.ofNat (c.toNat / 262144 % 0x08 + 0xf0), UInt8.ofNat (c.toNat / 4096 % 0x40 + 0x80),
        UInt8.ofNat (c.toNat / 64 % 0x40 + 0x80), UInt8.ofNat (c.toNat % 0x40 + 0x80)] := by
  rw [String.utf8EncodeChar]
  change (if c.toNat ≤ 0x7f then _ else if c.toNat ≤ 0x7ff then _ else
    if c.toNat ≤ 0xffff then _ else _) = _
  rw [if_neg (by omega), if_neg (by omega), if_neg (by omega)]
  rfl

theorem toNat_ofNat {n : Nat} (h : n < 256) : (UInt8.ofNat n).toNat = n := UInt8.toNat_ofNat_of_lt' h

/-- The encoding of a character is one of the sequences. -/
theorem isSequence_encode (c : Char) : IsSequence (String.utf8EncodeChar c) := by
  have hvalid : c.toNat < 0xd800 ∨ 0xdfff < c.toNat ∧ c.toNat < 0x110000 := c.valid
  by_cases hone : c.toNat < 0x80
  · rw [encode_one hone]
    have hb := toNat_ofNat (n := c.toNat) (by omega)
    exact .short _ (followers?_eq_zero.mpr (by omega))
  · by_cases htwo : c.toNat < 0x800
    · rw [encode_two (by omega) htwo]
      have hb := toNat_ofNat (n := c.toNat / 64 % 0x20 + 0xc0) (by omega)
      have ht := toNat_ofNat (n := c.toNat % 0x40 + 0x80) (by omega)
      refine .long _ _ [] (followers?_eq_one.mpr ?_) (inRange_secondByte.mpr ?_) nofun
      · omega
      · rw [hb, ht]
        omega
    · by_cases hthree : c.toNat < 0x10000
      · rw [encode_three (by omega) hthree]
        have hb := toNat_ofNat (n := c.toNat / 4096 % 0x10 + 0xe0) (by omega)
        have hs := toNat_ofNat (n := c.toNat / 64 % 0x40 + 0x80) (by omega)
        have ht := toNat_ofNat (n := c.toNat % 0x40 + 0x80) (by omega)
        refine .long _ _ [_] (followers?_eq_two.mpr ?_) (inRange_secondByte.mpr ?_)
          (List.forall_mem_singleton.mpr ?_)
        · omega
        · rw [hb, hs]
          omega
        · rw [inRange_tail, ht]
          omega
      · rw [encode_four (by omega)]
        have hb := toNat_ofNat (n := c.toNat / 262144 % 0x08 + 0xf0) (by omega)
        have hs := toNat_ofNat (n := c.toNat / 4096 % 0x40 + 0x80) (by omega)
        have ht := toNat_ofNat (n := c.toNat / 64 % 0x40 + 0x80) (by omega)
        have hu := toNat_ofNat (n := c.toNat % 0x40 + 0x80) (by omega)
        refine .long _ _ [_, _] (followers?_eq_three.mpr ?_) (inRange_secondByte.mpr ?_)
          (List.forall_mem_cons.mpr ⟨?_, List.forall_mem_singleton.mpr ?_⟩)
        · omega
        · rw [hb, hs]
          omega
        · rw [inRange_tail, ht]
          omega
        · rw [inRange_tail, hu]
          omega

theorem eq_ofNat {n : Nat} (h : b.toNat = n) : b = UInt8.ofNat n := by
  rw [← h, UInt8.ofNat_toNat]

/-- Each of the sequences is the encoding of a character. -/
theorem exists_encode (h : IsSequence sequence) : ∃ c, sequence = String.utf8EncodeChar c := by
  cases h with
  | short b hfirst =>
    have hb := followers?_eq_zero.mp hfirst
    obtain ⟨c, hc⟩ := exists_char (v := b.toNat) (.inl (by omega))
    refine ⟨c, ?_⟩
    rw [encode_one (by omega), hc, UInt8.ofNat_toNat]
  | long b second tails hfirst hsecond htails =>
    have hlength := followers?_le hfirst
    have hrange := inRange_secondByte.mp hsecond
    rcases tails with _ | ⟨t, _ | ⟨u, _ | ⟨_, _⟩⟩⟩
    · have hb := followers?_eq_one.mp hfirst
      obtain ⟨c, hc⟩ := exists_char (v := (b.toNat - 0xc0) * 64 + (second.toNat - 0x80))
        (.inl (by omega))
      refine ⟨c, ?_⟩
      rw [encode_two (by omega) (by omega), ← eq_ofNat (b := b) (by omega),
        ← eq_ofNat (b := second) (by omega)]
    · have hb := followers?_eq_two.mp hfirst
      have ht := inRange_tail.mp (htails t List.mem_cons_self)
      obtain ⟨c, hc⟩ := exists_char
        (v := (b.toNat - 0xe0) * 4096 + (second.toNat - 0x80) * 64 + (t.toNat - 0x80))
        (by rw [Nat.isValidChar]; omega)
      refine ⟨c, ?_⟩
      rw [encode_three (by omega) (by omega), ← eq_ofNat (b := b) (by omega),
        ← eq_ofNat (b := second) (by omega), ← eq_ofNat (b := t) (by omega)]
    · have hb := followers?_eq_three.mp hfirst
      obtain ⟨ht, hu⟩ := List.forall_mem_cons.mp htails
      have hu := inRange_tail.mp (hu u List.mem_cons_self)
      have ht := inRange_tail.mp ht
      obtain ⟨c, hc⟩ := exists_char
        (v := (b.toNat - 0xf0) * 262144 + (second.toNat - 0x80) * 4096 + (t.toNat - 0x80) * 64 +
          (u.toNat - 0x80))
        (.inr (by omega))
      refine ⟨c, ?_⟩
      rw [encode_four (by omega), ← eq_ofNat (b := b) (by omega),
        ← eq_ofNat (b := second) (by omega), ← eq_ofNat (b := t) (by omega),
        ← eq_ofNat (b := u) (by omega)]
    · simp only [List.length_cons] at hlength
      omega

end Encoding

/-- Bytes have no fault exactly when they are the encodings of characters in a row. -/
theorem faultFrom_eq_none : utf8FaultFrom position none bytes = none ↔
    ∃ cs : List Char, bytes = cs.flatMap String.utf8EncodeChar := by
  constructor
  · intro h
    -- The rest after a character is shorter.
    induction hlength : bytes.length using Nat.strongRecOn generalizing bytes position with
    | ind length ih =>
      cases bytes with
      | nil => exact ⟨[], rfl⟩
      | cons b more =>
        obtain ⟨sequence, rest, hbytes, hsequence⟩ := exists_sequence h
        obtain ⟨c, rfl⟩ := exists_encode hsequence
        rw [hbytes] at h hlength
        rw [faultFrom_sequence hsequence] at h
        have hshorter : rest.length < length := by
          rw [List.length_append] at hlength
          have hsome := List.length_pos_iff.mpr (String.utf8EncodeChar_ne_nil (c := c))
          omega
        obtain ⟨cs, rfl⟩ := ih rest.length hshorter h rfl
        exact ⟨c :: cs, hbytes⟩
  · rintro ⟨cs, rfl⟩
    induction cs generalizing position with
    | nil => rfl
    | cons c cs ih =>
      rw [List.flatMap_cons, faultFrom_sequence (isSequence_encode c)]
      exact ih

theorem toList_eq_data (content : ByteArray) : content.toList = content.data.toList := by
  suffices hloop : ∀ i before, ByteArray.toList.loop content i before =
      before.reverse ++ content.data.toList.drop i from
    hloop 0 []
  intro i before
  fun_induction ByteArray.toList.loop content i before with
  | case1 i before hi ih =>
    have hlength : i < content.data.toList.length := by simpa using hi
    have hget : content.get! i = content.data.toList[i] := by simp [ByteArray.get!, hi]
    rw [ih, List.drop_eq_getElem_cons hlength, hget, List.reverse_cons, List.append_assoc,
      List.singleton_append]
  | case2 i before hi =>
    have hlength : content.data.toList.length ≤ i := by simpa using hi
    rw [List.drop_eq_nil_of_le hlength, List.append_nil]

/-- A file has no fault exactly when it is the encoding of a text. -/
theorem utf8Fault?_eq_none {content : ByteArray} : utf8Fault? content.toList = none ↔
    ∃ text : String, content = text.toUTF8 := by
  have hencoded : ∀ cs : List Char, (String.ofList cs).toUTF8.toList =
      cs.flatMap String.utf8EncodeChar := by
    intro cs
    rw [toList_eq_data, String.toUTF8_eq_toByteArray, String.toByteArray_ofList, List.utf8Encode,
      List.toList_data_toByteArray]
  rw [utf8Fault?, faultFrom_eq_none]
  constructor
  · rintro ⟨cs, hcs⟩
    refine ⟨.ofList cs, ByteArray.ext (Array.toList_inj.mp ?_)⟩
    rw [← toList_eq_data, ← toList_eq_data, hcs, hencoded]
  · rintro ⟨text, rfl⟩
    refine ⟨text.toList, ?_⟩
    rw [← hencoded, String.ofList_toList]

/-- The text of an encoding is read back. -/
theorem fromUTF8?_toUTF8 (text : String) : String.fromUTF8? text.toUTF8 = some text := by
  exact dif_pos text.isValidUTF8

end SchemaCompiler.Text
