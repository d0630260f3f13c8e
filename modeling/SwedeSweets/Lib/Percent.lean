import Mathlib.Data.UInt

namespace Percent

/-!
# Percent-encoding

* `Alphabet` — the bytes that are written as they are, without `%`;
* `encode` — every other byte becomes `%` and two digits;
* `decode_encode` — reading it back gives the bytes, so the encoding is injective;
* `not_mem_encode` — a character outside the alphabet, that is no digit and not `%`, never
  occurs in an encoding.
-/

/-- The bytes an encoding leaves alone. -/
structure Alphabet where
  plain : UInt8 → Bool
  percent : plain 37 = false

/-- A hexadecimal digit, in upper case. -/
def hexDigit (n : ℕ) : Char := n.digitChar.toUpper

def hexValue (c : Char) : Option ℕ := (List.range 16).find? (fun n => hexDigit n = c)

def encodeByte (A : Alphabet) (b : UInt8) : List Char :=
  if A.plain b then [Char.ofUInt8 b]
  else ['%', hexDigit (b.toNat / 16), hexDigit (b.toNat % 16)]

def encode (A : Alphabet) (bs : List UInt8) : List Char := bs.flatMap (encodeByte A)

/-- The bytes an encoding stands for. -/
def decode : List Char → Option (List UInt8)
  | [] => some []
  | c :: cs =>
      if c = '%' then
        match cs with
        | high :: low :: cs => do
            return UInt8.ofNat (16 * (← hexValue high) + (← hexValue low)) :: (← decode cs)
        | _ => none
      else (decode cs).map (c.toUInt8 :: ·)

/-! ### Reading back -/

/-- A hexadecimal digit is read as its value. -/
theorem hexValue_hexDigit {n : ℕ} (hn : n < 16) : hexValue (hexDigit n) = some n := by
  have hall : ∀ n : Fin 16, hexValue (hexDigit n) = some n.val := by decide
  exact hall ⟨n, hn⟩

/-- A byte, as a character, is the byte again. -/
theorem toUInt8_ofUInt8 (b : UInt8) : (Char.ofUInt8 b).toUInt8 = b := by
  show b.toUInt32.toUInt8 = b
  simp

variable {A : Alphabet}

/-- A byte of the alphabet is not written as `%`. -/
theorem ofUInt8_ne_percent {b : UInt8} (hb : A.plain b = true) : Char.ofUInt8 b ≠ '%' := by
  intro h
  have hbyte : b = 37 := by
    rw [← toUInt8_ofUInt8 b, h]
    rfl
  rw [hbyte, A.percent] at hb
  cases hb

/-- A character other than the escape stands for itself. -/
theorem decode_plain {c : Char} (hc : c ≠ '%') (cs : List Char) :
    decode (c :: cs) = (decode cs).map (c.toUInt8 :: ·) := by
  rw [decode.eq_def]
  exact if_neg hc

/-- One encoded byte is read first. -/
theorem decode_encodeByte (b : UInt8) (cs : List Char) :
    decode (encodeByte A b ++ cs) = (decode cs).map (b :: ·) := by
  unfold encodeByte
  split
  · rename_i hb
    rw [List.singleton_append, decode_plain (ofUInt8_ne_percent hb), toUInt8_ofUInt8]
  · have hlt : b.toNat < 256 := UInt8.toNat_lt b
    -- an escaped byte is read as its two digits
    have hhigh : hexValue (hexDigit (b.toNat / 16)) = some (b.toNat / 16) :=
      hexValue_hexDigit (by omega)
    have hlow : hexValue (hexDigit (b.toNat % 16)) = some (b.toNat % 16) :=
      hexValue_hexDigit (by omega)
    have hbyte : UInt8.ofNat (16 * (b.toNat / 16) + b.toNat % 16) = b := by
      rw [show 16 * (b.toNat / 16) + b.toNat % 16 = b.toNat by omega]
      simp
    simp only [List.cons_append, List.nil_append, decode, if_pos, hhigh, hlow]
    cases decode cs with
    | none => rfl
    | some bs =>
      show some (UInt8.ofNat (16 * (b.toNat / 16) + b.toNat % 16) :: bs) = some (b :: bs)
      rw [hbyte]

/-- **Round trip.** -/
theorem decode_encode (bs : List UInt8) : decode (encode A bs) = some bs := by
  induction bs with
  | nil => rfl
  | cons b bs ih =>
    rw [show encode A (b :: bs) = encodeByte A b ++ encode A bs from rfl, decode_encodeByte, ih]
    rfl

/-- A character that the encoding has no use for. -/
theorem not_mem_encode {c : Char} (hpercent : c ≠ '%') (hdigit : ∀ n < 16, hexDigit n ≠ c)
    (hplain : A.plain c.toUInt8 = false) (bs : List UInt8) : c ∉ encode A bs := by
  intro hc
  obtain ⟨b, -, hc⟩ := List.mem_flatMap.mp hc
  unfold encodeByte at hc
  have hlt : b.toNat < 256 := UInt8.toNat_lt b
  -- a character written is plain, the escape, or a digit
  split at hc
  · rename_i hb
    rw [List.mem_singleton.mp hc, toUInt8_ofUInt8, hb] at hplain
    cases hplain
  · simp only [List.mem_cons, List.not_mem_nil, or_false] at hc
    rcases hc with h | h | h
    · exact hpercent h
    · exact hdigit _ (by omega) h.symm
    · exact hdigit _ (by omega) h.symm

end Percent
