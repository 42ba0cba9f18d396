import DeprecatedApi.Json.Lexer
import DeprecatedApi.Json.Printer
import Mathlib.Data.List.Basic
import Mathlib.Tactic.IntervalCases

/-!
# Numbers in JSON texts

A written number is read back, and the numbers of integer fields fit a double.

* `Number.parse?_chars`: the number of a written number.
* `Number.fitsDouble_ofNat`: a number of at most 64 bits fits a double.
-/

namespace DeprecatedApi

namespace Number

/-! ## Decimal texts -/

/-- The digits of a fraction are digits. -/
def HasDigits (n : Number) : Prop :=
  ∀ d ∈ n.fraction, d < 10

theorem digitChar_spec {d : Nat} (h : d < 10) :
    d.digitChar.isDigit = true ∧ d.digitChar.toNat - '0'.toNat = d := by
  interval_cases d <;> decide

theorem isDigit_of_mem_toDigits {n : Nat} {c : Char} (h : c ∈ Nat.toDigits 10 n) :
    c.isDigit = true :=
  Nat.isDigit_of_mem_toDigits (by decide) (by decide) h

theorem ofDigits_toDigits (n : Nat) : ofDigits (Nat.toDigits 10 n) = n :=
  Nat.ofDigitChars_toDigits (by decide) (by decide)

/-- Only zero is written with a leading zero. -/
theorem eq_zero_of_head?_toDigits {n : Nat} (h : (Nat.toDigits 10 n).head? = some '0') :
    n = 0 := by
  induction n using Nat.strongRecOn with
  | ind n ih =>
    rw [Nat.toDigits_eq_if (by decide)] at h
    split at h
    · rename_i hlt
      interval_cases n <;> first | rfl | exact absurd h (by decide)
    · rename_i hge
      have hne : Nat.toDigits 10 (n / 10) ≠ [] := Nat.toDigits_ne_nil
      rw [List.head?_append_of_ne_nil _ hne] at h
      have hzero := ih (n / 10) (by omega) h
      omega

theorem isWhole_toDigits (n : Nat) : isWhole (Nat.toDigits 10 n) = true := by
  rw [isWhole.eq_def]
  split
  · rename_i hnil
    exact absurd hnil Nat.toDigits_ne_nil
  · rfl
  · rename_i hlead hzero
    obtain rfl : n = 0 := eq_zero_of_head?_toDigits (by rw [hzero]; rfl)
    exact (hlead (List.cons.inj hzero).2.symm).elim
  · rfl

/-- Digits up to something that is none are all taken. -/
theorem takeWhile_digits {ds after : List Char} (hds : ∀ c ∈ ds, c.isDigit = true)
    (hafter : ∀ c, after.head? = some c → c.isDigit = false) :
    (ds ++ after).takeWhile Char.isDigit = ds ∧ (ds ++ after).dropWhile Char.isDigit = after := by
  rw [List.takeWhile_append_of_pos hds, List.dropWhile_append_of_pos hds]
  cases after with
  | nil => simp
  | cons c after =>
    have hc : ¬ c.isDigit = true := by simp [hafter c rfl]
    rw [List.takeWhile_cons_of_neg hc, List.dropWhile_cons_of_neg hc, List.append_nil]
    exact ⟨rfl, rfl⟩

theorem head?_toDigits_ne {n : Nat} {c : Char} (hc : c.isDigit = false) :
    (Nat.toDigits 10 n).head? ≠ some c := by
  intro h
  have hmem := isDigit_of_mem_toDigits (List.mem_of_mem_head? h)
  rw [hc] at hmem
  cases hmem

/-- The text of an exponent, with its mark. -/
def exponentText : Option Int → List Char
  | none => []
  | some e => 'e' :: exponentChars e

theorem parseExponent?_exponentText (e : Option Int) :
    parseExponent? (exponentText e) = some e := by
  have hdigits : ∀ n, ((Nat.toDigits 10 n).isEmpty || !(Nat.toDigits 10 n).all Char.isDigit)
      = false := by
    intro n
    have hall : (Nat.toDigits 10 n).all Char.isDigit = true :=
      List.all_eq_true.mpr fun c hc => isDigit_of_mem_toDigits hc
    have hne : (Nat.toDigits 10 n).isEmpty = false := by simp
    rw [hall, hne]
    rfl
  cases e with
  | none => rfl
  | some e =>
    cases e with
    | ofNat n =>
      have hminus : ((Nat.toDigits 10 n).head? == some '-') = false := by
        simpa using head?_toDigits_ne (rfl : '-'.isDigit = false)
      have hplus : ((Nat.toDigits 10 n).head? == some '+') = false := by
        simpa using head?_toDigits_ne (rfl : '+'.isDigit = false)
      simp only [exponentText, exponentChars, parseExponent?, hminus, hplus, Bool.or_self,
        Bool.false_eq_true, if_false, hdigits, ofDigits_toDigits]
      rfl
    | negSucc n =>
      simp only [exponentText, exponentChars, parseExponent?, List.head?_cons, beq_self_eq_true,
        Bool.true_or, if_true, List.tail_cons, hdigits, ofDigits_toDigits]
      rfl

theorem exponentText_head? {e : Option Int} {c : Char} (h : (exponentText e).head? = some c) :
    c = 'e' := by
  cases e with
  | none => cases h
  | some e => exact (Option.some.inj h).symm

/-- The text of a fraction, with its point. -/
def fractionText (ds : List Nat) : List Char :=
  if ds.isEmpty then [] else '.' :: ds.map Nat.digitChar

theorem chars_eq (n : Number) :
    n.chars = (if n.negative then ['-'] else []) ++ (Nat.toDigits 10 n.whole
      ++ (fractionText n.fraction ++ exponentText n.exponent)) := by
  rw [chars, List.append_assoc, List.append_assoc]
  rfl

/-- Reads what stands behind the whole part. -/
def readRest? (negative : Bool) (whole : Nat) (after : List Char) : Option Number :=
  match after with
  | '.' :: rest =>
    let fraction := rest.takeWhile Char.isDigit
    if fraction.isEmpty then none
    else
      (parseExponent? (rest.dropWhile Char.isDigit)).map fun e =>
        ⟨negative, whole, fraction.map fun c => c.toNat - '0'.toNat, e⟩
  | _ => (parseExponent? after).map fun e => ⟨negative, whole, [], e⟩

/-- Sign and whole part are read first. -/
theorem parse?_signed (negative : Bool) (whole : Nat) {after : List Char}
    (hafter : ∀ c, after.head? = some c → c.isDigit = false) :
    parse? ((if negative then ['-'] else []) ++ (Nat.toDigits 10 whole ++ after))
      = readRest? negative whole after := by
  obtain ⟨htake, hdrop⟩ := takeWhile_digits (fun c => isDigit_of_mem_toDigits (n := whole)) hafter
  have hminus : ((Nat.toDigits 10 whole ++ after).head? == some '-') = false := by
    rw [List.head?_append_of_ne_nil _ Nat.toDigits_ne_nil]
    simpa using head?_toDigits_ne (rfl : '-'.isDigit = false)
  cases negative with
  | false =>
    simp only [Bool.false_eq_true, if_false, List.nil_append, parse?, hminus, htake, hdrop,
      isWhole_toDigits, ofDigits_toDigits]
    rfl
  | true =>
    simp only [if_true, List.singleton_append, parse?, List.head?_cons, beq_self_eq_true,
      List.tail_cons, htake, hdrop, isWhole_toDigits, ofDigits_toDigits]
    rfl

theorem readRest?_text {fraction : List Nat} (h : ∀ d ∈ fraction, d < 10) (negative : Bool)
    (whole : Nat) (e : Option Int) :
    readRest? negative whole (fractionText fraction ++ exponentText e)
      = some ⟨negative, whole, fraction, e⟩ := by
  cases fraction with
  | nil =>
    show readRest? negative whole (exponentText e) = _
    have hread := parseExponent?_exponentText e
    cases e with
    | none => rfl
    | some e =>
      show (parseExponent? (exponentText (some e))).map _ = _
      rw [hread]
      rfl
  | cons d ds =>
    have hdigits : ∀ c ∈ (d :: ds).map Nat.digitChar, c.isDigit = true := by
      intro c hc
      obtain ⟨d', hd', rfl⟩ := List.mem_map.mp hc
      exact (digitChar_spec (h d' hd')).1
    have hback : ((d :: ds).map Nat.digitChar).map (fun c => c.toNat - '0'.toNat) = d :: ds := by
      rw [List.map_map]
      refine (List.map_congr_left fun d' hd' => ?_).trans (List.map_id _)
      exact (digitChar_spec (h d' hd')).2
    have hafter : ∀ c, (exponentText e).head? = some c → c.isDigit = false := by
      intro c hc
      rw [exponentText_head? hc]
      rfl
    obtain ⟨htake, hdrop⟩ := takeWhile_digits hdigits hafter
    show readRest? negative whole ('.' :: ((d :: ds).map Nat.digitChar ++ exponentText e)) = _
    simp only [readRest?, htake, hdrop, hback, parseExponent?_exponentText]
    rfl

/-- A written number is read back. -/
theorem parse?_chars {n : Number} (h : n.HasDigits) : parse? n.chars = some n := by
  have hafter : ∀ c, (fractionText n.fraction ++ exponentText n.exponent).head? = some c →
      c.isDigit = false := by
    intro c hc
    cases hfraction : n.fraction with
    | nil =>
      rw [hfraction] at hc
      rw [exponentText_head? hc]
      rfl
    | cons d ds =>
      rw [hfraction] at hc
      obtain rfl : '.' = c := Option.some.inj hc
      rfl
  rw [chars_eq, parse?_signed _ _ hafter, readRest?_text h]

/-! ## Doubles -/

/-- Digits only make a significand larger. -/
theorem le_foldl_digits (significand : Nat) (ds : List Nat) :
    significand ≤ ds.foldl (fun n d => n * 10 + d) significand := by
  induction ds generalizing significand with
  | nil => exact Nat.le_refl _
  | cons d ds ih =>
    have hnext := ih (significand * 10 + d)
    rw [List.foldl_cons]
    omega

/-- Digits of a number of at most 64 bits are all appended. -/
theorem appendDigits_of_le {significand : Nat} {ds : List Nat}
    (h : ds.foldl (fun n d => n * 10 + d) significand ≤ maxCount) :
    appendDigits significand ds
      = (ds.foldl (fun n d => n * 10 + d) significand, ds.length) := by
  induction ds generalizing significand with
  | nil => rfl
  | cons d ds ih =>
    rw [List.foldl_cons] at h ⊢
    have hfits : significand * 10 + d ≤ maxCount := (le_foldl_digits _ ds).trans h
    rw [appendDigits, if_pos hfits, ih h, List.length_cons]

theorem foldl_digits (n : Nat) : (digits n).foldl (fun n d => n * 10 + d) 0 = n := by
  have h := ofDigits_toDigits n
  rw [ofDigits, Nat.ofDigitChars] at h
  rw [digits, List.foldl_map]
  simpa [Nat.mul_comm] using h

/-- Rounding at most doubles a number. -/
theorem roundTo53_le (x : Nat) : roundTo53 x ≤ 2 * x := by
  rw [roundTo53]
  split
  · omega
  · rename_i hlarge
    have hne : x ≠ 0 := by
      rintro rfl
      exact hlarge (by decide)
    have hunit : Nat.pow 2 (x.log2 - 52) ≤ x :=
      (Nat.pow_le_pow_right (by decide) (Nat.sub_le _ _)).trans (Nat.log2_self_le hne)
    have hquotient := Nat.div_mul_le_self x (Nat.pow 2 (x.log2 - 52))
    show (if _ then _ else _) ≤ _
    split
    · rw [Nat.add_mul, Nat.one_mul, Nat.two_mul]
      exact Nat.add_le_add hquotient hunit
    · exact hquotient.trans (by omega)

/-- A number of at most 64 bits fits a double. -/
theorem fitsDouble_ofNat {n : Nat} (h : n ≤ maxCount) : (ofNat n).fitsDouble = true := by
  have happend : appendDigits 0 (digits n) = (n, (digits n).length) := by
    rw [appendDigits_of_le (by rwa [foldl_digits]), foldl_digits]
  have happrox : (ofNat n).approximation = (n, 0) := by
    simp [approximation, ofNat, happend, appendDigits]
  have hlimit : 2 * maxCount < doubleLimit := by decide +kernel
  have hsmall : roundTo53 n * roundTo53 (Nat.pow 10 (0 : Int).toNat) < doubleLimit := by
    have hone : roundTo53 (Nat.pow 10 (0 : Int).toNat) = 1 := rfl
    have hround := roundTo53_le n
    rw [hone]
    omega
  rw [fitsDouble, happrox]
  dsimp only
  split
  · rfl
  · rw [if_neg (by decide : ¬ (maxPower : Int) < 0), decide_eq_true hsmall]
end Number

end DeprecatedApi
