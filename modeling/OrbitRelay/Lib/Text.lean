import Mathlib.Algebra.Order.Ring.Nat
import Mathlib.Data.List.Induction
import Mathlib.Data.List.TakeWhile

/-
  Text as a service reads it: trimming, and tokens whose fields are separated
  by one character and end in a decimal numeral.

  Strings are Lean's; a function that looks at the characters works on
  `toList`. `splitOn` is Mathlib's and cuts as `str::split` does: n separators
  give n + 1 pieces, the empty string one empty piece.
-/

namespace Text

/-- The code points of Unicode's `White_Space` property. -/
def isWhitespace (c : Char) : Bool :=
  let n := c.toNat
  (9 ≤ n && n ≤ 13) || n == 32 || n == 0x85 || n == 0xA0 || n == 0x1680 ||
    (0x2000 ≤ n && n ≤ 0x200A) || n == 0x2028 || n == 0x2029 || n == 0x202F || n == 0x205F ||
    n == 0x3000

/-- The text without the white space at its two ends. -/
def trim (s : String) : List Char :=
  ((s.toList.dropWhile isWhitespace).reverse.dropWhile isWhitespace).reverse

/-! ## Decimal numerals -/

/-- The value of a non-empty string of ASCII digits. -/
def parseDigits (ds : List Char) : Option Nat :=
  if ds ≠ [] ∧ ds.all Char.isDigit then some (Nat.ofDigitChars 10 ds 0) else none

/-- An unsigned integer as `from_str` reads it: one optional `+`, then digits,
leading zeros allowed. There is no upper bound here; see `parseUnsignedBelow`. -/
def parseUnsigned : List Char → Option Nat
  | '+' :: ds => parseDigits ds
  | ds => parseDigits ds

/-- `parseUnsigned` for a type whose largest value is `max`. -/
def parseUnsignedBelow (max : Nat) (ds : List Char) : Option Nat :=
  (parseUnsigned ds).filter fun n => n ≤ max

theorem isDigit_of_mem_toDigits {n : Nat} {c : Char} (h : c ∈ Nat.toDigits 10 n) : c.isDigit = true :=
  Nat.isDigit_of_mem_toDigits (by decide) (by decide) h

@[simp] theorem parseDigits_toDigits (n : Nat) : parseDigits (Nat.toDigits 10 n) = some n := by
  have hdigits : (Nat.toDigits 10 n).all Char.isDigit = true :=
    List.all_eq_true.mpr fun _ hc => isDigit_of_mem_toDigits hc
  rw [parseDigits, if_pos ⟨Nat.toDigits_ne_nil, hdigits⟩, Nat.ofDigitChars_ten_toDigits]

/-- A printed number reads back as itself. -/
@[simp] theorem parseUnsigned_toDigits (n : Nat) : parseUnsigned (Nat.toDigits 10 n) = some n := by
  unfold parseUnsigned
  split
  · next ds heq =>
    have hplus : '+' ∈ Nat.toDigits 10 n := by rw [heq]; simp
    exact absurd (isDigit_of_mem_toDigits hplus) (by decide)
  · exact parseDigits_toDigits n

/-- A printed number contains no separator that is not a digit. -/
theorem not_mem_toDigits {c : Char} (hc : c.isDigit = false) (n : Nat) : c ∉ Nat.toDigits 10 n := by
  intro h
  rw [isDigit_of_mem_toDigits h] at hc
  exact absurd hc (by simp)

/-- A digit is the one its value prints as. -/
theorem exists_digitChar {c : Char} (hc : c.isDigit = true) : ∃ d, d < 10 ∧ c = Nat.digitChar d := by
  have hrange : 48 ≤ c.toNat ∧ c.toNat ≤ 57 := Char.isDigit_iff_toNat.mp hc
  have hvalue : ∀ d < 10, (Nat.digitChar d).toNat = 48 + d := by decide
  refine ⟨c.toNat - 48, by omega, ?_⟩
  apply Char.toNat_inj.mp
  rw [hvalue _ (by omega)]
  omega

/-- A numeral that does not start with a zero is the one its value prints as. -/
theorem toDigits_ofDigitChars {ds : List Char} (hne : ds ≠ []) (hdigits : ds.all Char.isDigit = true)
    (hhead : ds.head? ≠ some '0') : Nat.toDigits 10 (Nat.ofDigitChars 10 ds 0) = ds := by
  induction ds using List.reverseRecOn with
  | nil => exact absurd rfl hne
  | append_singleton ds c ih =>
    rw [List.all_append, Bool.and_eq_true] at hdigits
    obtain ⟨d, hd, rfl⟩ := exists_digitChar (c := c) (by simpa using hdigits.2)
    have hlast : Nat.ofDigitChars 10 (ds ++ [Nat.digitChar d]) 0 = 10 * Nat.ofDigitChars 10 ds 0 + d := by
      rw [Nat.ofDigitChars_append, Nat.ofDigitChars_cons_digitChar_of_lt_ten hd, Nat.ofDigitChars_nil]
    rw [hlast]
    -- the digits before the last are again a numeral without a leading zero, or there are none
    by_cases hds : ds = []
    · subst hds
      simp [Nat.ofDigitChars_nil, Nat.toDigits_of_lt_base hd]
    · have hhead' : ds.head? ≠ some '0' := by
        cases ds with
        | nil => exact absurd rfl hds
        | cons a ds => exact hhead
      have hrest := ih hds hdigits.1 hhead'
      have hpos : 0 < Nat.ofDigitChars 10 ds 0 := by
        apply Nat.pos_of_ne_zero
        intro hzero
        rw [hzero, Nat.toDigits_zero] at hrest
        exact hhead' (by rw [← hrest]; rfl)
      rw [← Nat.toDigits_append_toDigits (by omega) hpos hd, hrest, Nat.toDigits_of_lt_base hd]

/-- What reads as `n`: its digits, after any number of zeros. -/
theorem parseDigits_eq_some_iff {ds : List Char} {n : Nat} :
    parseDigits ds = some n ↔ ∃ zeros, ds = List.replicate zeros '0' ++ Nat.toDigits 10 n := by
  constructor
  · intro h
    induction ds with
    | nil => simp [parseDigits] at h
    | cons c ds ih =>
      simp only [parseDigits, ne_eq, reduceCtorEq, not_false_eq_true, true_and,
        Option.ite_none_right_eq_some, Option.some.injEq] at h
      obtain ⟨hdigits, hvalue⟩ := h
      by_cases hc : c = '0' ∧ ds ≠ []
      · obtain ⟨rfl, hne⟩ := hc
        have hrest : parseDigits ds = some n := by
          rw [List.all_cons, Bool.and_eq_true] at hdigits
          rw [parseDigits, if_pos ⟨hne, hdigits.2⟩, ← hvalue, Nat.ofDigitChars_cons]
          rfl
        obtain ⟨zeros, hds⟩ := ih hrest
        exact ⟨zeros + 1, by rw [hds]; rfl⟩
      · refine ⟨0, ?_⟩
        rw [← hvalue]
        by_cases hzero : c = '0'
        · have hnil : ds = [] := by
            by_contra hne
            exact hc ⟨hzero, hne⟩
          subst hzero hnil
          rfl
        · rw [toDigits_ofDigitChars (by simp) hdigits (by simpa using hzero)]
          rfl
  · intro h
    obtain ⟨zeros, rfl⟩ := h
    have hdigits : (List.replicate zeros '0' ++ Nat.toDigits 10 n).all Char.isDigit = true := by
      rw [List.all_append, Bool.and_eq_true]
      refine ⟨?_, List.all_eq_true.mpr fun _ hc => isDigit_of_mem_toDigits hc⟩
      simp
    have hne : List.replicate zeros '0' ++ Nat.toDigits 10 n ≠ [] := by
      simp [Nat.toDigits_ne_nil]
    rw [parseDigits, if_pos ⟨hne, hdigits⟩, Nat.ofDigitChars_append, Nat.ofDigitChars_replicate_zero,
      Nat.mul_zero, Nat.ofDigitChars_ten_toDigits]

theorem parseUnsigned_eq_some_iff {ds : List Char} {n : Nat} :
    parseUnsigned ds = some n ↔
      ∃ sign zeros, (sign = [] ∨ sign = ['+']) ∧
        ds = sign ++ (List.replicate zeros '0' ++ Nat.toDigits 10 n) := by
  have hplus : ∀ zeros, (List.replicate zeros '0' ++ Nat.toDigits 10 n).head? ≠ some '+' := by
    intro zeros hhead
    have hmem := List.mem_of_head? hhead
    rw [List.mem_append, List.mem_replicate] at hmem
    rcases hmem with hzero | hdigit
    · exact absurd hzero.2 (by decide)
    · exact not_mem_toDigits (by decide) n hdigit
  unfold parseUnsigned
  split
  · next ds =>
    rw [parseDigits_eq_some_iff]
    constructor
    · intro h
      obtain ⟨zeros, rfl⟩ := h
      exact ⟨['+'], zeros, .inr rfl, rfl⟩
    · intro h
      obtain ⟨sign, zeros, hsign, hds⟩ := h
      rcases hsign with rfl | rfl
      · exact absurd (by rw [← List.nil_append (List.replicate _ _ ++ _), ← hds]; rfl) (hplus zeros)
      · exact ⟨zeros, (List.cons.inj hds).2⟩
  · next hds =>
    rw [parseDigits_eq_some_iff]
    constructor
    · intro h
      obtain ⟨zeros, hzeros⟩ := h
      exact ⟨[], zeros, .inl rfl, hzeros⟩
    · intro h
      obtain ⟨sign, zeros, hsign, hds'⟩ := h
      rcases hsign with rfl | rfl
      · exact ⟨zeros, hds'⟩
      · exact absurd hds' (hds _)

/-! ## The order of numerals -/

theorem append_lt_append_left {l s t : List Char} : l ++ s < l ++ t ↔ s < t := by
  induction l with
  | nil => rfl
  | cons a l ih => rw [List.cons_append, List.cons_append, List.cons_lt_cons_self, ih]

/-- What follows decides only where the beginnings are the same. -/
theorem append_lt_iff {l m : List Char} (h : m.length ≤ l.length) (t : List Char) : l ++ t < m ↔ l < m := by
  induction l generalizing m with
  | nil =>
    obtain rfl := List.length_eq_zero_iff.mp (Nat.le_zero.mp h)
    simp
  | cons a l ih =>
    cases m with
    | nil => simp
    | cons b m => rw [List.cons_append, List.cons_lt_cons_iff, List.cons_lt_cons_iff, ih (Nat.le_of_succ_le_succ h)]

theorem append_lt_append {l m : List Char} (hlen : l.length = m.length) (h : l < m) (s t : List Char) :
    l ++ s < m ++ t := by
  induction l generalizing m with
  | nil =>
    obtain rfl := List.length_eq_zero_iff.mp hlen.symm
    exact absurd h (List.lt_irrefl [])
  | cons a l ih =>
    cases m with
    | nil => simp at hlen
    | cons b m =>
      rw [List.cons_append, List.cons_append, List.cons_lt_cons_iff]
      rcases List.cons_lt_cons_iff.mp h with hab | ⟨hab, hlm⟩
      · exact .inl hab
      · exact .inr ⟨hab, ih (Nat.succ.inj hlen) hlm⟩

theorem digitChar_lt {a b : Nat} (h : a < b) (hb : b < 10) : Nat.digitChar a < Nat.digitChar b := by
  have hall : ∀ b < 10, ∀ a < b, Nat.digitChar a < Nat.digitChar b := by decide
  exact hall b hb a h

theorem toDigits_length_mono {p q : Nat} (h : p ≤ q) :
    (Nat.toDigits 10 p).length ≤ (Nat.toDigits 10 q).length := by
  rw [Nat.length_toDigits_le_iff (by decide) Nat.length_toDigits_pos]
  exact Nat.lt_of_le_of_lt h ((Nat.length_toDigits_le_iff (by decide) Nat.length_toDigits_pos).mp (Nat.le_refl _))

/-- Numerals of one length are ordered as their values. -/
theorem toDigits_lt_of_lt {p q : Nat} (hlen : (Nat.toDigits 10 p).length = (Nat.toDigits 10 q).length) (h : p < q) :
    Nat.toDigits 10 p < Nat.toDigits 10 q := by
  induction q using Nat.strongRecOn generalizing p with
  | ind q ih =>
    by_cases hq : q < 10
    · rw [Nat.toDigits_of_lt_base (by omega), Nat.toDigits_of_lt_base hq]
      exact List.cons_lt_cons_iff.mpr (.inl (digitChar_lt h hq))
    · have hp : 10 ≤ p := by
        by_contra hp
        rw [Nat.toDigits_of_lt_base (by omega), Nat.toDigits_of_base_le (by decide) (by omega),
          List.length_append] at hlen
        simp at hlen
      rw [Nat.toDigits_of_base_le (by decide) hp,
        Nat.toDigits_of_base_le (b := 10) (n := q) (by decide) (by omega)] at hlen ⊢
      have hlen' : (Nat.toDigits 10 (p / 10)).length = (Nat.toDigits 10 (q / 10)).length := by simpa using hlen
      -- the digits before the last decide, or are the same
      rcases Nat.lt_or_eq_of_le (Nat.div_le_div_right (c := 10) (Nat.le_of_lt h)) with hlt | heq
      · exact append_lt_append hlen' (ih (q / 10) (by omega) hlen' hlt) _ _
      · rw [heq]
        exact List.append_left_lt (List.cons_lt_cons_iff.mpr (.inl (digitChar_lt (by omega) (by omega))))

/-- A longer numeral comes first exactly if its leading digits do. -/
theorem toDigits_lt_iff_of_length {p q k : Nat}
    (hlen : (Nat.toDigits 10 q).length = (Nat.toDigits 10 p).length + k) :
    Nat.toDigits 10 q < Nat.toDigits 10 p ↔ q < p * 10 ^ k := by
  induction k generalizing q with
  | zero =>
    rw [Nat.pow_zero, Nat.mul_one]
    constructor
    · intro hlt
      by_contra hle
      rcases Nat.lt_or_eq_of_le (Nat.not_lt.mp hle) with hpq | rfl
      · exact absurd hlt (List.lt_asymm (toDigits_lt_of_lt hlen.symm hpq))
      · exact absurd hlt (List.lt_irrefl _)
    · exact toDigits_lt_of_lt hlen
  | succ k ih =>
    have hq : 10 ≤ q := by
      by_contra hq
      have hpos : 0 < (Nat.toDigits 10 p).length := Nat.length_toDigits_pos
      rw [Nat.toDigits_of_lt_base (by omega)] at hlen
      simp at hlen
      omega
    rw [Nat.toDigits_of_base_le (b := 10) (n := q) (by decide) hq] at hlen ⊢
    have hlen' : (Nat.toDigits 10 (q / 10)).length = (Nat.toDigits 10 p).length + k := by
      rw [List.length_append, List.length_singleton] at hlen
      omega
    rw [append_lt_iff (by omega), ih hlen', Nat.div_lt_iff_lt_mul (by decide), Nat.pow_succ, Nat.mul_assoc]

/-- Of two numbers the smaller has the smaller numeral exactly if it is not
above the leading digits of the larger, as many as it has itself. -/
theorem toDigits_lt_iff {p q : Nat} (h : p < q) :
    Nat.toDigits 10 p < Nat.toDigits 10 q ↔
      p * 10 ^ ((Nat.toDigits 10 q).length - (Nat.toDigits 10 p).length) ≤ q := by
  have hlen := toDigits_length_mono (Nat.le_of_lt h)
  rw [← Nat.not_lt, ← toDigits_lt_iff_of_length (by omega), List.not_lt, List.le_iff_lt_or_eq]
  constructor
  · exact .inl
  · intro hle
    rcases hle with hlt | heq
    · exact hlt
    · have hvalue := congrArg parseDigits heq
      rw [parseDigits_toDigits, parseDigits_toDigits, Option.some.injEq] at hvalue
      omega

/-! ## Fields -/

/-- Three fields joined by a separator none of them contains split into the three. -/
theorem splitOn_three (sep : Char) (a b c : List Char) (ha : sep ∉ a) (hb : sep ∉ b) (hc : sep ∉ c) :
    List.splitOn sep (a ++ sep :: (b ++ sep :: c)) = [a, b, c] := by
  have hjoin : a ++ sep :: (b ++ sep :: c) = [sep].intercalate [a, b, c] := by
    simp [List.intercalate, List.intersperse]
  rw [hjoin]
  apply List.splitOn_intercalate
  · intro l hl
    simp only [List.mem_cons, List.not_mem_nil, or_false] at hl
    rcases hl with rfl | rfl | rfl <;> assumption
  · simp

/-- Three pieces come from the three joined by the separator. -/
theorem of_splitOn_three {sep : Char} {l a b c : List Char} (h : List.splitOn sep l = [a, b, c]) :
    l = a ++ sep :: (b ++ sep :: c) := by
  have hjoin : [sep].intercalate (List.splitOn sep l) = l := List.intercalate_splitOn sep
  rw [← hjoin, h]
  simp [List.intercalate, List.intersperse]

end Text
