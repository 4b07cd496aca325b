import Phrasebook.Proofs.Plural.Denoting
import Phrasebook.Proofs.Plural.Failing

/-!
# How large values become

The value of an expression has no more digits than its operands have together, and the text of an
expression is short.

**Division.**  The truncated quotient is that of core, and so is what it leaves.
**Digits.**  `Expr.digits k` bounds how many digits a value has for a quantity of at most `k`
digits; `Expr.isWithin_of_evaluate` says so for the value, and `Expr.DividesByZero.isWithin` for the
dividend of a division by zero.
**Texts.**  `Denotes.digits_le`: the bound is at most `k / 2` for each character of the text.
**Result.**  `isWithin_of_dividesByZero`: in an expression that can be read, no quantity of at most
eight digits leads to a dividend that is too long to be shown.
-/

namespace Phrasebook
namespace Plural

section Division

theorem truncatedQuotient_eq_tdiv (a b : Int) : truncatedQuotient a b = a.tdiv b := by
  unfold truncatedQuotient
  cases a with
  | ofNat m =>
      cases b with
      | ofNat k => simp [Int.tdiv]
      | negSucc k => simp [Int.tdiv]
  | negSucc m =>
      cases b with
      | ofNat k => simp [Int.tdiv]
      | negSucc k => simp [Int.tdiv]

theorem truncatedRemainder_eq_tmod (a b : Int) : truncatedRemainder a b = a.tmod b := by
  rw [truncatedRemainder, truncatedQuotient_eq_tdiv, Int.tmod_def]

end Division

section Values

variable {k d d' : Nat} {n a b v : Int} {x : Expr} {op : BinaryOp}

theorem natAbs_truth_le (c : Bool) : (truth c).natAbs ≤ 1 := by
  cases c <;> decide

/-- The value of an operator is smaller than the product of two bounds for its operands. -/
theorem BinaryOp.natAbs_apply_lt {p q : Nat} (hp : 2 ≤ p) (hq : 2 ≤ q) (ha : a.natAbs < p)
    (hb : b.natAbs < q) (h : op.apply a b = .ok v) : v.natAbs < p * q := by
  have hsum : p + q ≤ p * q := Nat.add_le_mul hp hq
  cases op with
  | or | and | eq | ne | lt | le | gt | ge =>
      cases h
      refine Nat.lt_of_le_of_lt (natAbs_truth_le _) ?_
      omega
  | add =>
      cases h
      have hadd := Int.natAbs_add_le a b
      omega
  | sub =>
      cases h
      have hsub := Int.natAbs_sub_le a b
      omega
  | mul =>
      cases h
      rw [Int.natAbs_mul]
      exact Nat.mul_lt_mul'' ha hb
  | div =>
      rw [apply] at h
      split at h <;> cases h
      have hquotient := Int.natAbs_tdiv_le_natAbs a b
      rw [truncatedQuotient_eq_tdiv]
      omega
  | mod =>
      rw [apply] at h
      split at h <;> cases h
      have hremainder : (a.tmod b).natAbs ≤ a.natAbs := by
        rw [Int.natAbs_tmod]
        exact Nat.mod_le _ _
      rw [truncatedRemainder_eq_tmod]
      omega

/-- Has the number at most `d` digits? -/
def IsWithin (d : Nat) (a : Int) : Prop :=
  a.natAbs < Nat.pow 10 d

theorem IsWithin.mono (h : IsWithin d a) (hd : d ≤ d') : IsWithin d' a :=
  Nat.lt_of_lt_of_le h (Nat.pow_le_pow_right (by decide) hd)

theorem two_le_pow (hd : 0 < d) : 2 ≤ Nat.pow 10 d :=
  Nat.le_trans (by decide : 2 ≤ Nat.pow 10 1) (Nat.pow_le_pow_right (by decide) hd)

theorem isWithin_truth (hd : 0 < d) (c : Bool) : IsWithin d (truth c) :=
  Nat.lt_of_le_of_lt (natAbs_truth_le c) (two_le_pow hd)

theorem BinaryOp.isWithin_of_apply (hd : 0 < d) (hd' : 0 < d') (ha : IsWithin d a)
    (hb : IsWithin d' b) (h : op.apply a b = .ok v) : IsWithin (d + d') v := by
  have hlt := natAbs_apply_lt (two_le_pow hd) (two_le_pow hd') ha hb h
  have hpow : Nat.pow 10 (d + d') = Nat.pow 10 d * Nat.pow 10 d' := Nat.pow_add 10 d d'
  rwa [IsWithin, hpow]

theorem BinaryOp.isWithin_of_settledBy? (hd : 0 < d) (h : op.settledBy? a = some v) :
    IsWithin d v := by
  have hvalue : v = truth false ∨ v = truth true := by
    cases op with
    | or | and => grind [settledBy?, truth]
    | _ => cases h
  rcases hvalue with rfl | rfl <;> exact isWithin_truth hd _

/-- How many digits the value of an expression may have for a quantity of at most `k` digits. -/
def Expr.digits (k : Nat) : Expr → Nat
  | .number value => (decimalDigits value).length
  | .quantity => k
  | .negation operand => operand.digits k
  | .binary _ left right => left.digits k + right.digits k
  | .conditional test ifTrue ifFalse => test.digits k + ifTrue.digits k + ifFalse.digits k

theorem Expr.digits_pos (hk : 0 < k) (x : Expr) : 0 < x.digits k := by
  induction x with
  | number value => exact List.length_pos_iff.2 (decimalDigits_ne_nil value)
  | quantity => exact hk
  | negation operand ih => exact ih
  | binary op left right ihl ihr => exact Nat.add_pos_left ihl _
  | conditional test ifTrue ifFalse iht ihx ihy =>
      exact Nat.add_pos_left (Nat.add_pos_left iht _) _

theorem Expr.isWithin_of_evaluate (hk : 0 < k) (hn : IsWithin k n)
    (h : x.evaluate n = .ok v) : IsWithin (x.digits k) v := by
  induction x generalizing v with
  | number value =>
      cases h
      exact (length_decimalDigits_le_iff (digits_pos hk (.number value))).1 (Nat.le_refl _)
  | quantity =>
      cases h
      exact hn
  | negation operand ih =>
      obtain ⟨a, -, hpure⟩ := bind_eq_ok_iff.1 h
      cases hpure
      exact isWithin_truth (digits_pos hk operand) _
  | binary op left right ihl ihr =>
      have hleft := digits_pos hk left
      have hright := digits_pos hk right
      obtain ⟨a, ha, hvalue⟩ := bind_eq_ok_iff.1 h
      split at hvalue
      · rename_i hsettled
        cases hvalue
        exact BinaryOp.isWithin_of_settledBy? (Nat.add_pos_left hleft _) hsettled
      · obtain ⟨b, hb, happly⟩ := bind_eq_ok_iff.1 hvalue
        exact BinaryOp.isWithin_of_apply hleft hright (ihl ha) (ihr hb) happly
  | conditional test ifTrue ifFalse iht ihx ihy =>
      obtain ⟨t, -, hbranch⟩ := bind_eq_ok_iff.1 h
      simp only [digits]
      split at hbranch
      · exact (ihy hbranch).mono (by omega)
      · exact (ihx hbranch).mono (by omega)

theorem Expr.DividesByZero.isWithin (hk : 0 < k) (hn : IsWithin k n)
    (h : x.DividesByZero n op a) : IsWithin (x.digits k) a := by
  induction h with
  | negation _ ih => exact ih
  | left _ ih | right _ _ _ ih | test _ ih | ifTrue _ _ _ ih | ifFalse _ _ ih =>
      exact ih.mono (by simp only [digits]; omega)
  | here _ hx _ => exact (isWithin_of_evaluate hk hn hx).mono (Nat.le_add_right _ _)

end Values

section Texts

variable {k : Nat} {t : Text} {l : Lexeme} {ls ms : List Lexeme}

/-- How many characters the lexemes have. -/
def width (ls : List Lexeme) : Nat :=
  (ls.flatMap Lexeme.toText).length

theorem width_cons : width (l :: ls) = l.toText.length + width ls := by
  rw [width, List.flatMap_cons, List.length_append, width]

theorem width_append : width (ls ++ ms) = width ls + width ms := by
  rw [width, List.flatMap_append, List.length_append, width, width]

theorem Splits.width_le (h : Splits t ls) : width ls ≤ t.length := by
  induction h with
  | nil => exact Nat.le_refl 0
  | blank _ _ ih => exact Nat.le_succ_of_le ih
  | lexeme _ _ ih =>
      rw [List.length_append, width_cons]
      exact Nat.add_le_add_left ih _

theorem Splits.exists_fits (h : Splits t ls) : ∀ l ∈ ls, ∃ rest, l.Fits rest := by
  induction h with
  | nil => exact fun _ hmem => nomatch hmem
  | blank _ _ ih => exact ih
  | lexeme hlong _ ih => exact List.forall_mem_cons.2 ⟨⟨_, hlong.1⟩, ih⟩

/-- Each operand brings its digits and, but for the first one, an operator in front of it. -/
theorem Derives.digits_le {c : Category} {e : Expr} {n : Nat} (hk : 2 ≤ k) (h : Derives c ls e n)
    (hls : ∀ l ∈ ls, ∃ rest, l.Fits rest) : 2 * e.digits k ≤ k * (width ls + 1) := by
  induction h with
  | conditional _ _ _ iht ihx ihy =>
      rw [List.forall_mem_append, List.forall_mem_append, List.forall_mem_cons,
        List.forall_mem_cons] at hls
      have ht := iht hls.1.1
      have hx := ihx hls.1.2.2
      have hy := ihy hls.2.2
      simp only [Expr.digits, width_append, width_cons, Lexeme.toText, List.length_singleton,
        Nat.mul_add] at ht hx hy ⊢
      omega
  | condition _ ih | tighter _ _ ih | operand _ ih | atom _ ih => exact ih hls
  | @binary op _ _ _ _ _ _ _ _ ihl ihr =>
      rw [List.forall_mem_append, List.forall_mem_cons] at hls
      have hl := ihl hls.1
      have hr := ihr hls.2.2
      have hop : 1 ≤ op.toText.length := by cases op <;> decide
      have hwidth := Nat.mul_le_mul_left k hop
      simp only [Expr.digits, width_append, width_cons, Lexeme.toText, Nat.mul_add] at hl hr ⊢
      omega
  | negation _ ih =>
      have hoperand := ih (List.forall_mem_cons.1 hls).2
      simp only [Expr.digits, width_cons, Nat.mul_add] at hoperand ⊢
      omega
  | number digits =>
      obtain ⟨rest, hne, hdigit⟩ := hls (.number digits) List.mem_cons_self
      have hlength : (decimalDigits (Nat.ofDigitChars 10 digits 0)).length ≤ digits.length :=
        (length_decimalDigits_le_iff (List.length_pos_iff.2 hne)).2 (ofDigitChars_lt hdigit)
      have hwidth : digits.length ≤ width [.number digits] + 1 := by
        rw [width_cons]
        exact Nat.le_succ_of_le (Nat.le_add_right _ _)
      exact Nat.mul_le_mul hk (Nat.le_trans hlength hwidth)
  | quantity => exact Nat.le_of_eq (Nat.mul_comm 2 k)
  | parens _ ih =>
      rw [List.forall_mem_append, List.forall_mem_cons] at hls
      have hinner := ih hls.1.2
      simp only [width_append, width_cons, Nat.mul_add] at hinner ⊢
      omega

theorem Denotes.digits_le {e : Expr} (hk : 2 ≤ k) (h : Denotes t e) :
    2 * e.digits k ≤ k * (t.length + 1) := by
  obtain ⟨ls, n, hsplits, hderived⟩ := h
  exact Nat.le_trans (hderived.digits_le hk hsplits.exists_fits)
    (Nat.mul_le_mul_left k (Nat.succ_le_succ hsplits.width_le))

/-- In an expression that can be read, a quantity of at most eight digits leads to no dividend
that is too long to be shown. -/
theorem isWithin_of_dividesByZero {c : Compiled} {n a : Int} {op : BinaryOp}
    (hcompile : compile t = .ok c) (hn : IsWithin 8 n) (h : c.tree.DividesByZero n op a) :
    IsWithin digitLimit a := by
  have hdigits := (denotes_of_compile hcompile).digits_le (k := 8) (by decide)
  have hlength : t.length ≤ 1000 := length_le_of_compile hcompile
  have hlimit : digitLimit = 4300 := rfl
  exact (h.isWithin (by decide) hn).mono (by omega)

end Texts

end Plural
end Phrasebook
