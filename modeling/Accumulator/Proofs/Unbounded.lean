import Accumulator.Proofs.Division
import Accumulator.Proofs.Operators
import Mathlib.Algebra.Group.Nat.Defs
/-!
# Words and unbounded integers

The machine reduces its accumulator to 64 bits at every step.  Adding, subtracting and doubling do not
notice, since they commute with the reduction, but halving does.  So a program may run out of the
range of a word and come back, and what it returns is still the unbounded result reduced once at the
end, as long as the unbounded number is in range wherever it is halved.
-/

namespace Accumulator.Proofs.Unbounded

open Compilation Division Machine Meaning Operators

/-- The number that a source makes of `n` when nothing is ever cut off. -/
def totalFrom (n : Int) (source : Bytes) : Int :=
  source.foldl (fun n b => effect b n) n

def total (source : Bytes) : Int :=
  totalFrom 0 source

instance (n : Int) : Decidable (FitsWord n) :=
  inferInstanceAs (Decidable (_ ∧ _))

/-- Just before each `/` of the source, the number made of `n` so far fits a word. -/
def HalvesInRange (n : Int) (source : Bytes) : Prop :=
  ∀ i, (hi : i < source.length) → source[i] = Bytes.ofChar '/' →
    FitsWord (totalFrom n (source.take i))

instance (n : Int) (source : Bytes) : Decidable (HalvesInRange n source) :=
  inferInstanceAs (Decidable (∀ i, (_ : i < source.length) → _))

/-! ## Reduction to a word -/

theorem toInt_ofInt_of_fitsWord {n : Int} (hn : FitsWord n) : (Int64.ofInt n).toInt = n := by
  obtain ⟨hlower, hupper⟩ := hn
  exact Int64.toInt_ofInt_of_le hlower hupper

/-- One byte keeps a word congruent to the unbounded number.  At a halving congruence is not enough,
and the word has to be the number. -/
theorem wordEffect_ofInt {n : Int} {b : UInt8} (hhalve : b = Bytes.ofChar '/' → FitsWord n) :
    wordEffect (Int64.ofInt n) b = Int64.ofInt (effect b n) := by
  unfold wordEffect effect
  by_cases hplus : b = Bytes.ofChar '+'
  · rw [if_pos hplus, if_pos hplus, Int64.ofInt_add, Int64.ofInt_toInt, ← Int64.ofInt_add]
  · rw [if_neg hplus, if_neg hplus]
    by_cases hminus : b = Bytes.ofChar '-'
    · rw [if_pos hminus, if_pos hminus, Int64.ofInt_sub, Int64.ofInt_toInt, ← Int64.ofInt_sub]
    · rw [if_neg hminus, if_neg hminus]
      by_cases hstar : b = Bytes.ofChar '*'
      · rw [if_pos hstar, if_pos hstar, Int64.ofInt_mul, Int64.ofInt_toInt, ← Int64.ofInt_mul]
      · rw [if_neg hstar, if_neg hstar]
        by_cases hslash : b = Bytes.ofChar '/'
        · rw [if_pos hslash, if_pos hslash, toInt_ofInt_of_fitsWord (hhalve hslash)]
        · rw [if_neg hslash, if_neg hslash, Int64.ofInt_toInt]

theorem HalvesInRange.head {n : Int} {b : UInt8} {rest : Bytes}
    (hrange : HalvesInRange n (b :: rest)) (hb : b = Bytes.ofChar '/') : FitsWord n :=
  hrange 0 (Nat.zero_lt_succ _) hb

theorem HalvesInRange.tail {n : Int} {b : UInt8} {rest : Bytes}
    (hrange : HalvesInRange n (b :: rest)) : HalvesInRange (effect b n) rest := by
  intro i hi hslash
  exact hrange (i + 1) (Nat.succ_lt_succ hi) hslash

theorem foldl_wordEffect_ofInt {n : Int} {source : Bytes} (hrange : HalvesInRange n source) :
    source.foldl wordEffect (Int64.ofInt n) = Int64.ofInt (totalFrom n source) := by
  induction source generalizing n with
  | nil => rfl
  | cons b rest ih =>
      rw [List.foldl_cons, wordEffect_ofInt hrange.head, ih hrange.tail]
      rfl

theorem halvesInRange_of_not_mem {source : Bytes} (hslash : Bytes.ofChar '/' ∉ source) (n : Int) :
    HalvesInRange n source := by
  intro i hi heq
  exact absurd (heq ▸ List.getElem_mem hi) hslash

/-! ## Sources with one operator -/

theorem effect_of_not_isOperator {b : UInt8} (hb : isOperator b = false) (n : Int) :
    effect b n = n := by
  obtain ⟨hplus, hminus, hstar, hslash⟩ := ne_of_not_isOperator hb
  rw [effect, if_neg hplus, if_neg hminus, if_neg hstar, if_neg hslash]

theorem totalFrom_operators (n : Int) (source : Bytes) :
    totalFrom n (source.filter isOperator) = totalFrom n source := by
  have hstep : (fun n b => if isOperator b = true then effect b n else n) =
      fun n b => effect b n := by
    funext n b
    cases hb : isOperator b with
    | true => rw [if_pos rfl]
    | false => rw [if_neg (by decide), effect_of_not_isOperator hb]
  rw [totalFrom, totalFrom, List.foldl_filter, hstep]

theorem totalFrom_replicate {b : UInt8} {d : Int} (hb : ∀ n, effect b n = n + d) (n : Int)
    (k : Nat) : totalFrom n (List.replicate k b) = n + k * d := by
  induction k generalizing n with
  | zero => simp [totalFrom]
  | succ k ih =>
      have hstep : totalFrom n (List.replicate (k + 1) b) =
          totalFrom (effect b n) (List.replicate k b) := rfl
      rw [hstep, ih, hb, Int.natCast_succ, Int.add_mul, Int.one_mul]
      omega

theorem slash_not_mem_of_operators {source : Bytes} {b : UInt8} {k : Nat}
    (hsource : source.filter isOperator = List.replicate k b) (hb : b ≠ Bytes.ofChar '/') :
    Bytes.ofChar '/' ∉ source := by
  intro hmem
  have hfilter : Bytes.ofChar '/' ∈ source.filter isOperator :=
    List.mem_filter.2 ⟨hmem, by decide⟩
  rw [hsource] at hfilter
  exact hb (List.eq_of_mem_replicate hfilter).symm

/-! ## What compiled code returns -/

/-- The code returns `n`, reduced to a signed word modulo 2 ^ 64. -/
def Returns (code : Bytes) (n : Int) : Prop :=
  ∃ value : Int64, emulate code = .ok value ∧ value.toInt = n.bmod (2 ^ 64)

theorem returns_of_halvesInRange {source : Bytes} (hrange : HalvesInRange 0 source) :
    Returns (Program.compile source).code (total source) := by
  have hrun := emulate_compile_append source []
  rw [List.append_nil] at hrun
  have hmeaning : meaning source = Int64.ofInt (total source) := foldl_wordEffect_ofInt hrange
  rw [hmeaning] at hrun
  exact ⟨Int64.ofInt (total source), hrun, Int64.toInt_ofInt⟩

theorem returns_of_operators {source : Bytes} {b : UInt8} {d : Int} {k : Nat}
    (hsource : source.filter isOperator = List.replicate k b) (hb : b ≠ Bytes.ofChar '/')
    (heffect : ∀ n, effect b n = n + d) : Returns (Program.compile source).code (k * d) := by
  have hslash := slash_not_mem_of_operators hsource hb
  have htotal : total source = k * d := by
    rw [total, ← totalFrom_operators, hsource, totalFrom_replicate heffect, Int.zero_add]
  rw [← htotal]
  exact returns_of_halvesInRange (halvesInRange_of_not_mem hslash 0)

/-- A program returns what its source comes to in unbounded integers, reduced to a word, if no number
out of range is ever halved.  This is so without any halving, and one operator alone counts. -/
theorem compile_returns_total (source : Bytes) :
    (HalvesInRange 0 source → Returns (Program.compile source).code (total source)) ∧
    (Bytes.ofChar '/' ∉ source → Returns (Program.compile source).code (total source)) ∧
    ∀ k : Nat,
      (source.filter isOperator = List.replicate k (Bytes.ofChar '+') →
        Returns (Program.compile source).code k) ∧
      (source.filter isOperator = List.replicate k (Bytes.ofChar '-') →
        Returns (Program.compile source).code (-k)) := by
  refine ⟨returns_of_halvesInRange, ?_, ?_⟩
  · intro hslash
    exact returns_of_halvesInRange (halvesInRange_of_not_mem hslash 0)
  · intro k
    constructor
    · intro hsource
      simpa using returns_of_operators hsource (by decide) (d := 1) fun n => rfl
    · intro hsource
      simpa using returns_of_operators hsource (by decide) (d := -1) fun n => rfl

/-- Doubling sixty-three times leaves the range of a word, and one step back enters it again before
the halving.  The other three programs only count, up to 2 ^ 64 in the first of them. -/
theorem compile_returns_total_out_and_back :
    let doubled : Bytes := Bytes.ofAscii "+" ++ List.replicate 63 (Bytes.ofChar '*')
    let halved := doubled ++ Bytes.ofAscii "-/"
    let wrapped := doubled ++ Bytes.ofAscii "*"
    (¬ FitsWord (total doubled) ∧ HalvesInRange 0 halved ∧
      Returns (Program.compile halved).code (2 ^ 62 - 1)) ∧
    (Bytes.ofChar '/' ∉ wrapped ∧ Returns (Program.compile wrapped).code (2 ^ 64)) ∧
    Returns (Program.compile (Bytes.ofAscii "one+two+")).code 2 ∧
    Returns (Program.compile (Bytes.ofAscii "---\n")).code (-3) := by
  intro doubled halved wrapped
  have hhalved : total halved = 2 ^ 62 - 1 := by decide +kernel
  have hwrapped : total wrapped = 2 ^ 64 := by decide +kernel
  have hrange : HalvesInRange 0 halved := by decide +kernel
  have hslash : Bytes.ofChar '/' ∉ wrapped := by decide +kernel
  rw [← hhalved, ← hwrapped]
  exact ⟨⟨by decide +kernel, hrange, (compile_returns_total halved).1 hrange⟩,
    ⟨hslash, (compile_returns_total wrapped).2.1 hslash⟩,
    ((compile_returns_total _).2.2 2).1 (by decide), ((compile_returns_total _).2.2 3).2 (by decide)⟩

end Accumulator.Proofs.Unbounded
