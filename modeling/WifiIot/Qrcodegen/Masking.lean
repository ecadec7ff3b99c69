import Mathlib.Data.List.MinMax
import WifiIot.Qrcodegen.Codewords
import WifiIot.Qrcodegen.Penalty

/-!
# Choosing a mask

All eight masks are tried on the symbol itself: each is applied, drawn with its format
bits, judged and taken off again.  What an earlier trial leaves behind is only under the
format bits, so every mask is judged as if it were the only one.

Source: `qrcode_gen/src/qrcodegen.c`.
-/

namespace WifiIot.Qrcodegen

open Raster

/-- `mask` and `minPenalty` of the search, with the symbol.  `none` is `qrcodegen_Mask_AUTO`. -/
structure Choice where
  mask : Option Mask
  minPenalty : Int
  qrcode : List UInt8

def tryMask (ecl : qrcodegen_Ecc) (tempBuffer : List UInt8) (state : Choice) (msk : Mask) :
    Run Choice := do
  let qrcode ← applyMask tempBuffer state.qrcode msk
  let qrcode ← drawFormatBits .qrcode ecl msk qrcode
  let penalty ← getPenaltyScore qrcode
  let (mask, minPenalty) :=
    if penalty < state.minPenalty then (some msk, penalty) else (state.mask, state.minPenalty)
  let qrcode ← applyMask tempBuffer qrcode msk
  .ok ⟨mask, minPenalty, qrcode⟩

/-- The last part of `qrcodegen_encodeSegmentsAdvanced`. -/
def handleMasking (ecl : qrcodegen_Ecc) (mask : Option Mask) (tempBuffer qrcode : List UInt8) :
    Run (List UInt8) := do
  let choice ← (match mask with
    | some _ => .ok ⟨mask, LONG_MAX, qrcode⟩
    | none => (List.finRange 8).foldlM (tryMask ecl tempBuffer) ⟨none, LONG_MAX, qrcode⟩ : Run Choice)
  match choice.mask with
  | none => .error .undefined
  | some mask => do
      let qrcode ← applyMask tempBuffer choice.qrcode mask
      drawFormatBits .qrcode ecl mask qrcode

/-! ## Finished symbols -/

section Finished

variable (version : Version) (ecl : qrcodegen_Ecc) (picture : Nat × Nat → Bool)

def finished (mask : Mask) : Nat × Nat → Bool :=
  plot (fun point => picture point ^^ maskAt version mask point)
    (formatDots version.side (formatBits ecl mask))

def finishedPenalty (mask : Mask) : Nat := penalty (finished version ecl picture mask) version.side

def SameUnderFormat (other : Nat × Nat → Bool) : Prop :=
  ∀ point, (∀ dot ∈ formatDots version.side 0, dot.1 ≠ point) → picture point = other point

end Finished

section Masking

variable {version : Version} {ecl : qrcodegen_Ecc} {picture other : Nat × Nat → Bool}
  {tempBuffer qrcode : List UInt8}

theorem mem_formatDots {qrsize bits : Nat} {dot : (Nat × Nat) × Bool} (mem : dot ∈ formatDots qrsize bits)
    (otherBits : Nat) : ∃ same ∈ formatDots qrsize otherBits, same.1 = dot.1 := by
  rw [formatDots, List.mem_append, List.mem_append, List.mem_map, List.mem_map, List.mem_singleton] at mem
  simp only [formatDots, List.mem_append, List.mem_map, List.mem_singleton]
  rcases mem with (⟨i, listed, rfl⟩ | ⟨i, listed, rfl⟩) | rfl
  · exact ⟨_, .inl (.inl ⟨i, listed, rfl⟩), rfl⟩
  · exact ⟨_, .inl (.inr ⟨i, listed, rfl⟩), rfl⟩
  · exact ⟨_, .inr rfl, rfl⟩

theorem finished_congr (same : SameUnderFormat version picture other) (mask : Mask) :
    finished version ecl picture mask = finished version ecl other mask := by
  refine plot_congr fun point miss => ?_
  have here := same point fun dot mem hit => by
    obtain ⟨stroke, listed, place⟩ := mem_formatDots mem (formatBits ecl mask)
    exact miss stroke listed (place.trans hit)
  exact congrArg (· ^^ maskAt version mask point) here

theorem sameUnderFormat_unmasked (mask : Mask) :
    SameUnderFormat version
      (fun point => finished version ecl picture mask point ^^ maskAt version mask point) picture := by
  intro point miss
  have there : finished version ecl picture mask point = (picture point ^^ maskAt version mask point) := by
    refine plot_of_miss fun stroke mem hit => ?_
    obtain ⟨dot, listed, place⟩ := mem_formatDots mem 0
    exact miss dot listed (place.trans hit)
  dsimp only
  rw [there, Bool.xor_assoc, Bool.xor_self, Bool.xor_false]

structure Maskable (version : Version) (tempBuffer qrcode : List UInt8) : Prop where
  symbol : Symbol qrcode version.side
  marked : Symbol tempBuffer version.side
  function : moduleAt tempBuffer version.side = isFunction version

theorem Maskable.finish (maskable : Maskable version tempBuffer qrcode) (ecl : qrcodegen_Ecc)
    (mask : Mask) :
    ∃ masked drawn, applyMask tempBuffer qrcode mask = .ok masked ∧
      drawFormatBits .qrcode ecl mask masked = .ok drawn ∧ Maskable version tempBuffer drawn ∧
      drawn.length = qrcode.length ∧
      moduleAt drawn version.side = finished version ecl (moduleAt qrcode version.side) mask := by
  obtain ⟨masked, applies, symbolMasked, sameMasked, pictureMasked⟩ :=
    applyMask_eq maskable.symbol maskable.marked maskable.function mask
  obtain ⟨drawn, draws, kept, pictureDrawn⟩ := @drawFormatBits_eq .qrcode _ _ symbolMasked ecl mask
  refine ⟨masked, drawn, applies, draws, ⟨kept.symbol, maskable.marked, maskable.function⟩,
    kept.length.trans sameMasked, ?_⟩
  rw [pictureDrawn, pictureMasked]
  rfl

theorem odd_side (version : Version) : version.side % 2 = 1 := by
  rw [Version.side]
  omega

theorem penalty_of_finished {drawn : List UInt8} (maskable : Maskable version tempBuffer drawn)
    {mask : Mask} (shape : moduleAt drawn version.side = finished version ecl picture mask) :
    getPenaltyScore drawn = .ok (finishedPenalty version ecl picture mask : Nat) := by
  rw [getPenaltyScore_run maskable.symbol (odd_side version), shape]
  rfl

/-- One trial: the symbol is as it was, and the mask is judged. -/
theorem tryMask_eq {state : Choice} (maskable : Maskable version tempBuffer state.qrcode)
    (same : SameUnderFormat version (moduleAt state.qrcode version.side) picture) (msk : Mask) :
    ∃ tried, tryMask ecl tempBuffer state msk = .ok tried ∧
      Maskable version tempBuffer tried.qrcode ∧ tried.qrcode.length = state.qrcode.length ∧
      SameUnderFormat version (moduleAt tried.qrcode version.side) picture ∧
      (tried.mask, tried.minPenalty) =
        if (finishedPenalty version ecl picture msk : Int) < state.minPenalty
        then (some msk, (finishedPenalty version ecl picture msk : Int))
        else (state.mask, state.minPenalty) := by
  obtain ⟨masked, drawn, applies, draws, maskableDrawn, sameDrawn, shape⟩ := maskable.finish ecl msk
  rw [finished_congr same] at shape
  obtain ⟨restored, restores, symbolRestored, sameRestored, pictureRestored⟩ :=
    applyMask_eq maskableDrawn.symbol maskable.marked maskable.function msk
  let best : Option Mask × Int :=
    if (finishedPenalty version ecl picture msk : Int) < state.minPenalty
    then (some msk, (finishedPenalty version ecl picture msk : Int))
    else (state.mask, state.minPenalty)
  refine ⟨⟨best.1, best.2, restored⟩, ?_, ⟨symbolRestored, maskable.marked, maskable.function⟩,
    sameRestored.trans sameDrawn, ?_, rfl⟩
  · rw [tryMask, applies, run_ok_bind, draws, run_ok_bind, penalty_of_finished maskableDrawn shape,
      run_ok_bind]
    dsimp only
    rw [restores]
    rfl
  · dsimp only
    rw [pictureRestored, shape]
    exact sameUnderFormat_unmasked msk

/-- The trials of some masks: the first of the least penalties is found. -/
theorem foldlM_tryMask (maskable : Maskable version tempBuffer qrcode) (masks : List Mask) :
    ∃ last, masks.foldlM (tryMask ecl tempBuffer) ⟨none, LONG_MAX, qrcode⟩ = .ok last ∧
      Maskable version tempBuffer last.qrcode ∧ last.qrcode.length = qrcode.length ∧
      SameUnderFormat version (moduleAt last.qrcode version.side) (moduleAt qrcode version.side) ∧
      last.mask = masks.argmin (finishedPenalty version ecl (moduleAt qrcode version.side)) ∧
      last.minPenalty = (last.mask.elim LONG_MAX fun mask =>
        (finishedPenalty version ecl (moduleAt qrcode version.side) mask : Int)) := by
  induction masks using List.reverseRecOn with
  | nil => exact ⟨_, rfl, maskable, rfl, fun _ _ => rfl, rfl, rfl⟩
  | append_singleton masks msk inductionHypothesis =>
      obtain ⟨state, runs, maskableState, sameState, under, least, penalty⟩ := inductionHypothesis
      obtain ⟨tried, tries, maskableTried, sameTried, underTried, best⟩ :=
        @tryMask_eq version ecl _ _ _ maskableState under msk
      refine ⟨tried, ?_, maskableTried, sameTried.trans sameState, underTried, ?_, ?_⟩
      · rw [List.foldlM_append, runs, run_ok_bind, List.foldlM_cons, tries]
        rfl
      · rw [List.argmin_concat, ← least]
        rw [penalty] at best
        have below : (finishedPenalty version ecl (moduleAt qrcode version.side) msk : Int) < LONG_MAX :=
          penalty_lt (lt_of_lt_of_le (Nat.succ_pos 20) (side_bounds version).1) (side_bounds version).2
        cases chosen : state.mask with
        | none =>
            rw [chosen, Option.elim_none, if_pos below] at best
            exact (Prod.mk.inj best).1
        | some mask =>
            rw [chosen, Option.elim_some] at best
            simp only [Nat.cast_lt] at best
            dsimp only
            split_ifs at best ⊢ with better
            · exact (Prod.mk.inj best).1
            · exact (Prod.mk.inj best).1
      · split_ifs at best with better
        · rw [(Prod.mk.inj best).1, (Prod.mk.inj best).2]
          rfl
        · rw [(Prod.mk.inj best).1, (Prod.mk.inj best).2, penalty]

/-- A mask that was asked for, or the first one with the least penalty. -/
def Chosen (version : Version) (ecl : qrcodegen_Ecc) (picture : Nat × Nat → Bool) (mask : Option Mask)
    (chosen : Mask) : Prop :=
  mask = some chosen ∨ mask = none ∧
    chosen ∈ (List.finRange 8).argmin (finishedPenalty version ecl picture)

theorem eq_of_chosen {mask chosen : Mask} (choice : Chosen version ecl picture (some mask) chosen) :
    chosen = mask := by
  rcases choice with wanted | ⟨auto, -⟩
  · exact (Option.some.inj wanted).symm
  · cases auto

theorem le_of_chosen {chosen : Mask} (choice : Chosen version ecl picture none chosen) (mask : Mask) :
    finishedPenalty version ecl picture chosen ≤ finishedPenalty version ecl picture mask ∧
      (mask < chosen → finishedPenalty version ecl picture chosen <
        finishedPenalty version ecl picture mask) := by
  rcases choice with wanted | ⟨-, least⟩
  · cases wanted
  · refine ⟨List.le_of_mem_argmin (List.mem_finRange mask) least, fun earlier => ?_⟩
    by_contra better
    have order := List.index_of_argmin least (List.mem_finRange mask) (not_lt.mp better)
    have all : ∀ first second : Mask, (List.finRange 8).idxOf first ≤ (List.finRange 8).idxOf second →
        first ≤ second := by decide
    exact absurd (all chosen mask order) (not_le.mpr earlier)

theorem handleMasking_eq (maskable : Maskable version tempBuffer qrcode) (mask : Option Mask) :
    ∃ drawn chosen, handleMasking ecl mask tempBuffer qrcode = .ok drawn ∧
      Maskable version tempBuffer drawn ∧ drawn.length = qrcode.length ∧
      Chosen version ecl (moduleAt qrcode version.side) mask chosen ∧
      moduleAt drawn version.side = finished version ecl (moduleAt qrcode version.side) chosen := by
  cases mask with
  | some mask =>
      obtain ⟨masked, drawn, applies, draws, maskableDrawn, same, shape⟩ := maskable.finish ecl mask
      refine ⟨drawn, mask, ?_, maskableDrawn, same, .inl rfl, shape⟩
      rw [handleMasking, run_ok_bind]
      dsimp only
      rw [applies, run_ok_bind, draws]
  | none =>
      obtain ⟨last, runs, maskableLast, sameLast, under, least, -⟩ :=
        @foldlM_tryMask version ecl _ _ maskable (List.finRange 8)
      obtain ⟨chosen, found⟩ : ∃ chosen, last.mask = some chosen := by
        refine Option.ne_none_iff_exists'.mp fun unfound => ?_
        rw [least, List.argmin_eq_none] at unfound
        exact absurd unfound (by decide)
      obtain ⟨masked, drawn, applies, draws, maskableDrawn, same, shape⟩ := maskableLast.finish ecl chosen
      refine ⟨drawn, chosen, ?_, maskableDrawn, same.trans sameLast, .inr ⟨rfl, ?_⟩, ?_⟩
      · rw [handleMasking, runs, run_ok_bind, found]
        dsimp only
        rw [applies, run_ok_bind, draws]
      · rw [← least, found]
        rfl
      · rw [shape, finished_congr under]

end Masking

end WifiIot.Qrcodegen
