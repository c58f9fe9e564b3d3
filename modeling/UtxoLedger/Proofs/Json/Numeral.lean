import UtxoLedger.Json.Numeral
import UtxoLedger.Proofs.Text.Decimal

/-!
# Numerals are read back

The digits of a number are scanned as the numeral of that number wherever what stands behind them
cannot go on with it: no digit, no point and no mark of an exponent.
-/
namespace UtxoLedger.Json.Numeral

/-- The numeral that a number is written with. -/
def ofNat (n : Nat) : Numeral :=
  ⟨false, (Nat.toDigits 10 n).map Decimal.valueOf, [], none⟩

/-- No numeral goes on with this text. -/
def Ends (rest : List Char) : Prop :=
  ∀ c ∈ rest.head?, c.isDigit = false ∧ c ≠ '.' ∧ c ≠ 'e' ∧ c ≠ 'E'

theorem ends_nil : Ends [] := nofun

@[simp] theorem value_ofNat (n : Nat) : value (ofNat n).whole = n := by
  have same (text : List Char) (start : Nat) :
      (text.map Decimal.valueOf).foldl (fun n d => n * 10 + d) start =
        Nat.ofDigitChars 10 text start := by
    rw [List.foldl_map, Nat.ofDigitChars_eq_foldl]
    simp only [Decimal.valueOf, Nat.mul_comm]
  exact (same _ 0).trans Nat.ofDigitChars_ten_toDigits

@[simp] theorem isNatural_ofNat (n : Nat) : (ofNat n).isNatural = true := rfl

section Scan

variable {rest : List Char}

theorem digits_append {text : List Char} (all : ∀ c ∈ text, c.isDigit = true) (ends : Ends rest) :
    digits (text ++ rest) = (text.map Decimal.valueOf, rest) := by
  induction text with
  | nil =>
    cases rest with
    | nil => rfl
    | cons c rest =>
      have other : Decimal.digit? c = none := by
        rw [Option.eq_none_iff_forall_ne_some]
        intro value digit
        have no := (ends c rfl).1
        rw [(Decimal.digit?_eq_some_iff.mp digit).1] at no
        cases no
      simp [digits, other]
  | cons c text ih =>
    rw [List.forall_mem_cons] at all
    rw [List.cons_append, digits, Decimal.digit?_of_isDigit all.1]
    dsimp only
    rw [ih all.2]
    rfl

theorem scanFraction_of_ends (ends : Ends rest) : scanFraction rest = .ok ([], rest) := by
  unfold scanFraction
  split
  next text => exact absurd rfl (ends '.' rfl).2.1
  next => rfl

theorem scanExponent_of_ends (ends : Ends rest) : scanExponent rest = .ok (none, rest) := by
  cases rest with
  | nil => rfl
  | cons c rest =>
    obtain ⟨-, -, lower, upper⟩ := ends c rfl
    unfold scanExponent
    exact if_neg (not_or.mpr ⟨lower, upper⟩)

theorem scanSign_of_digit {c : Char} (digit : c.isDigit = true) (rest : List Char) :
    scanSign (c :: rest) = (false, c :: rest) := by
  unfold scanSign
  split
  next minus =>
    cases minus
    cases digit
  next => rfl

/-- A number that starts with a zero is zero, so nothing stands behind it. -/
theorem scanWhole_toDigits (n : Nat) (ends : Ends rest) :
    scanWhole (Nat.toDigits 10 n ++ rest) = .ok ((ofNat n).whole, rest) := by
  unfold scanWhole
  rw [digits_append (fun _ => Decimal.isDigit_toDigits) ends]
  split
  next empty => simp at empty
  next second others _ zeros =>
    obtain ⟨zero, -⟩ := Prod.mk.inj zeros
    exact absurd zero (Decimal.values_ne_zero_cons n second others)
  next => rfl

theorem scan_toDigits (n : Nat) (ends : Ends rest) :
    scan (Nat.toDigits 10 n ++ rest) = .ok (ofNat n, rest) := by
  have unsigned : scanSign (Nat.toDigits 10 n ++ rest) = (false, Nat.toDigits 10 n ++ rest) := by
    obtain ⟨c, others, written, digit⟩ := Decimal.toDigits_cons n
    rw [written, List.cons_append, scanSign_of_digit digit]
  rw [scan, unsigned]
  dsimp only
  rw [scanWhole_toDigits n ends]
  change (scanFraction rest >>= _) = _
  rw [scanFraction_of_ends ends]
  change (scanExponent rest >>= _) = _
  rw [scanExponent_of_ends ends]
  rfl

end Scan

end UtxoLedger.Json.Numeral
