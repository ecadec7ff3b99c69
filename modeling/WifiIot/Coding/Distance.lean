import Mathlib
import WifiIot.Coding.Division

/-!
# The distance between words

A word of coefficients whose polynomial vanishes at the first powers of an element
cannot have few coefficients other than 0: those it has would solve a Vandermonde
system.  So two words with the same check places differ in many places or not at all.
-/

namespace WifiIot.Coding

open Polynomial

universe u

variable {F : Type u} [Field F]

/-- The polynomial of the word vanishes at the first `checks` powers of the element. -/
def Vanishes (generator : F) (checks : Nat) (word : List F) : Prop :=
  ∀ k < checks, (poly word).eval (generator ^ k) = 0

variable {generator : F} {checks : Nat}

theorem vanishes_iff {word : List F} : Vanishes generator checks word ↔
    ∀ k < checks, ∑ i : Fin word.length, word.get i * (generator ^ (word.length - 1 - i)) ^ k = 0 := by
  refine forall₂_congr fun k _ => ?_
  rw [eval_poly]
  simp only [← pow_mul, Nat.mul_comm k]
  rfl

/-- With no more places than checks, everything that vanishes is 0. -/
theorem eq_zero_of_sum_pow {Place : Type} {places : Finset Place} {node value : Place → F}
    (different : Set.InjOn node places) (few : places.card ≤ checks)
    (sums : ∀ k < checks, ∑ i ∈ places, value i * node i ^ k = 0) : ∀ i ∈ places, value i = 0 := by
  let count := places.equivFin
  have solved : (fun i => value (count.symm i)) = 0 := by
    refine Matrix.eq_zero_of_forall_pow_sum_mul_pow_eq_zero (f := fun i => node (count.symm i))
      (fun i j same => ?_) fun k => ?_
    · have equal := different (count.symm i).2 (count.symm j).2 same
      exact count.symm.injective (Subtype.ext equal)
    · rw [← sums k (lt_of_lt_of_le k.isLt few), ← Finset.sum_coe_sort places]
      exact count.symm.sum_comp fun i => value i * node i ^ (k : Nat)
  intro i mem
  have zero := congrFun solved (count ⟨i, mem⟩)
  simpa using zero

section Words

variable [DecidableEq F]

def weight (word : List F) : Nat := word.countP fun value => value ≠ 0

theorem weight_eq_card (word : List F) :
    weight word = (Finset.univ.filter fun i : Fin word.length => word.get i ≠ 0).card := by
  have list : word = (List.finRange word.length).map word.get :=
    (List.map_get_finRange word).symm
  rw [weight]
  conv_lhs => rw [list]
  rw [List.countP_map, List.countP_eq_length_filter]
  rfl

/-- As long as the powers of the element are different, a word that vanishes has more
coefficients other than 0 than there are checks, or none. -/
theorem lt_weight_of_vanishes {word : List F} (vanishes : Vanishes generator checks word)
    (different : ∀ i < word.length, ∀ j < word.length, generator ^ i = generator ^ j → i = j)
    (nontrivial : ∃ value ∈ word, value ≠ 0) : checks < weight word := by
  rw [weight_eq_card]
  by_contra few
  rw [not_lt] at few
  let node : Fin word.length → F := fun i => generator ^ (word.length - 1 - i)
  let value : Fin word.length → F := word.get
  let support := Finset.univ.filter fun i => value i ≠ 0
  have injective : Set.InjOn node support := by
    intro i _ j _ same
    have equal := different _ (by omega) _ (by omega) same
    exact Fin.ext (by omega)
  have sums : ∀ k < checks, ∑ i ∈ support, value i * node i ^ k = 0 := by
    intro k less
    rw [← vanishes_iff.mp vanishes k less]
    refine Finset.sum_subset (Finset.subset_univ _) fun i _ outside => ?_
    have zero : value i = 0 := by
      by_contra nonzero
      exact outside (Finset.mem_filter.mpr ⟨Finset.mem_univ _, nonzero⟩)
    rw [zero, zero_mul]
  obtain ⟨symbol, mem, nonzero⟩ := nontrivial
  obtain ⟨i, inside, rfl⟩ := List.getElem_of_mem mem
  exact nonzero (eq_zero_of_sum_pow injective few sums ⟨i, inside⟩
    (Finset.mem_filter.mpr ⟨Finset.mem_univ _, nonzero⟩))

def differences {Symbol : Type u} [DecidableEq Symbol] (first second : List Symbol) : Nat :=
  (first.zip second).countP fun pair => pair.1 ≠ pair.2

theorem differences_cons {Symbol : Type u} [DecidableEq Symbol] (a b : Symbol)
    (first second : List Symbol) : differences (a :: first) (b :: second) =
      differences first second + if a = b then 0 else 1 := by
  rw [differences, List.zip_cons_cons, List.countP_cons, ← differences]
  simp only [decide_eq_true_eq, ne_eq, ite_not]

theorem differences_comm {Symbol : Type u} [DecidableEq Symbol] (first second : List Symbol) :
    differences first second = differences second first := by
  induction first generalizing second with
  | nil => cases second <;> rfl
  | cons a first inductionHypothesis =>
      cases second with
      | nil => rfl
      | cons b second =>
          rw [differences_cons, differences_cons, inductionHypothesis]
          simp only [eq_comm]

theorem differences_triangle {Symbol : Type u} [DecidableEq Symbol]
    {first second third : List Symbol} (long : first.length = second.length) :
    differences first third ≤ differences first second + differences second third := by
  induction first generalizing second third with
  | nil => exact Nat.zero_le _
  | cons a first inductionHypothesis =>
      obtain ⟨b, second, rfl⟩ := List.exists_cons_of_length_eq_add_one long.symm
      cases third with
      | nil => exact Nat.zero_le _
      | cons c third =>
          have rest := @inductionHypothesis second third (Nat.succ.inj long)
          have here : (if a = c then 0 else 1) ≤ (if a = b then 0 else 1) + if b = c then 0 else 1 := by
            by_cases same : a = b
            · subst same
              exact Nat.le_add_left _ _
            · rw [if_neg same]
              split <;> omega
          rw [differences_cons, differences_cons, differences_cons]
          omega

theorem differences_map {Symbol Image : Type u} [DecidableEq Symbol] [DecidableEq Image]
    {image : Symbol → Image} (injective : Function.Injective image) (first second : List Symbol) :
    differences (first.map image) (second.map image) = differences first second := by
  induction first generalizing second with
  | nil => rfl
  | cons a first inductionHypothesis =>
      cases second with
      | nil => rfl
      | cons b second =>
          rw [List.map_cons, List.map_cons, differences_cons, differences_cons, inductionHypothesis]
          simp only [injective.eq_iff]

theorem weight_zipWith_sub {first second : List F} :
    weight (List.zipWith (fun a b => a - b) first second) = differences first second := by
  induction first generalizing second with
  | nil => rfl
  | cons a first inductionHypothesis =>
      cases second with
      | nil => rfl
      | cons b second =>
          rw [weight, differences, List.zipWith_cons_cons, List.zip_cons_cons, List.countP_cons,
            List.countP_cons]
          congr 1
          · exact inductionHypothesis
          · simp only [decide_eq_true_eq, ne_eq, sub_eq_zero]

theorem lt_differences_of_vanishes {first second : List F} (same : first.length = second.length)
    (vanishesFirst : Vanishes generator checks first)
    (vanishesSecond : Vanishes generator checks second)
    (different : ∀ i < first.length, ∀ j < first.length, generator ^ i = generator ^ j → i = j)
    (other : first ≠ second) : checks < differences first second := by
  have length : (List.zipWith (fun a b => a - b) first second).length = first.length := by
    rw [List.length_zipWith, same, Nat.min_self]
  have vanishes : Vanishes generator checks (List.zipWith (fun a b => a - b) first second) := by
    intro k less
    have split := poly_zipWith_sub (1 : F) same
    simp only [mul_one, C_1, one_mul] at split
    rw [split, eval_sub, vanishesFirst k less, vanishesSecond k less, sub_zero]
  rw [← weight_zipWith_sub]
  refine lt_weight_of_vanishes vanishes (by rwa [length]) ?_
  by_contra allZero
  push Not at allZero
  refine other (List.ext_getElem same fun i inFirst inSecond => ?_)
  have inside : i < (List.zipWith (fun a b => a - b) first second).length := by rwa [length]
  have zero := allZero _ (List.getElem_mem inside)
  rw [List.getElem_zipWith] at zero
  exact sub_eq_zero.mp zero

end Words

end WifiIot.Coding
