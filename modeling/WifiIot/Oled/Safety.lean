import WifiIot.Oled.Picture

/-!
# What text can do to the OLED

A text that fits is shown with commands for the pointer only.  Any other text
does harm: below the last page the page command becomes another one, `F6x8` is
read behind its end, or the index of the string comes back to the start.

Source: `oled_demo/oled_ssd1306.c` and `oled_fonts.h`.
-/

namespace WifiIot.Oled

open Memory Ssd1306

/-- The call returns, reads inside the tables, and sends commands for the
pointer only. -/
def Safe (x y : UInt8) (str : Text) (font : Font) : Prop :=
  ∃ rounds transfers, OledShowString rounds x y (some str) font = some (.ok transfers) ∧
    ∀ transfer ∈ transfers, ∀ byte, Item.command byte ∈ decode transfer → SetsPointer byte

/-! ## Texts that fit -/

section Commands

variable {x y ch byte : UInt8} {font : Font} {transfer : List UInt8}

theorem command_mem_WriteCmd : Item.command byte ∈ decode (WriteCmd ch) ↔ byte = ch := by
  have single : decode (WriteCmd ch) = [.command ch] := rfl
  rw [single, List.mem_singleton, Item.command.injEq]

theorem command_notMem_WriteData : Item.command byte ∉ decode (WriteData ch) := by
  have single : decode (WriteData ch) = [.data ch] := rfl
  simp [single]

theorem setsPointer_of_mem_cellTransfers (visible : y.toNat + font.pages ≤ 8)
    (sent : transfer ∈ cellTransfers x y ch font)
    (command : Item.command byte ∈ decode transfer) : SetsPointer byte := by
  obtain ⟨page, listed, inStrip⟩ := List.mem_flatMap.mp sent
  have bound := List.mem_range.mp listed
  have row : (y + UInt8.ofNat page).toNat ≤ 7 := by
    rw [UInt8.toNat_add, UInt8.toNat_ofNat']
    change (y.toNat + page % 256) % 256 ≤ 7
    omega
  obtain ⟨pageCommand, low, high⟩ := @setsPointer_position x (y + UInt8.ofNat page) row
  rcases List.mem_append.mp inStrip with position | data
  · simp only [OledSetPosition, List.mem_cons, List.not_mem_nil, or_false] at position
    rcases position with rfl | rfl | rfl
    · exact command_mem_WriteCmd.mp command ▸ pageCommand
    · exact command_mem_WriteCmd.mp command ▸ low
    · exact command_mem_WriteCmd.mp command ▸ high
  · obtain ⟨written, -, rfl⟩ := List.mem_map.mp data
    exact absurd command command_notMem_WriteData

end Commands

section Text

variable {x y : UInt8} {str : Text} {font : Font}

theorem safe_of_fits (left : x.toNat ≤ 120) (fits : Fits x.toNat y.toNat str.val font) :
    Safe x y str font := by
  refine ⟨str.val.length, _, by rw [OledShowString_of_fits left fits, if_pos le_rfl], ?_⟩
  intro transfer sent byte command
  obtain ⟨k, listed, inCell⟩ := List.mem_flatMap.mp sent
  have visible := fits.2 k (List.mem_range.mp listed)
  apply setsPointer_of_mem_cellTransfers _ inCell command
  rw [UInt8.toNat_ofNat', Nat.mod_eq_of_lt (by omega)]
  exact visible

/-! ## Texts that are shown safely -/

theorem exists_of_showNext {printing next : Printing}
    (round : showNext str font printing = .ok next) :
    ∃ ch shown, charAt str printing.j = .ok ch ∧
      OledShowChar printing.x printing.y ch font = .ok shown ∧
      next.sent = printing.sent ++ shown := by
  simp only [showNext, bind_eq_ok_iff] at round
  obtain ⟨ch, read, shown, printed, returned⟩ := round
  cases returned
  exact ⟨ch, shown, read, printed, rfl⟩

theorem sent_of_iterate {n : Nat} {outcome : Checked Table Printing} {final : Printing}
    (run : (fun printing => printing >>= showNext str font)^[n] outcome = .ok final) :
    ∃ printing, outcome = .ok printing ∧ printing.sent <+: final.sent := by
  induction n generalizing outcome with
  | zero => exact ⟨final, run, List.prefix_rfl⟩
  | succ n inductionHypothesis =>
      obtain ⟨next, stepped, later⟩ := inductionHypothesis run
      obtain ⟨printing, started, round⟩ := bind_eq_ok_iff.mp stepped
      obtain ⟨ch, shown, -, -, added⟩ := exists_of_showNext round
      refine ⟨printing, started, List.IsPrefix.trans ?_ later⟩
      rw [added]
      exact List.prefix_append ..

theorem row_place_succ (x y k : Nat) : (place x y (k + 1)).2 ≤ (place x y k).2 + 2 := by
  rw [place_succ, nextPlace]
  split
  · exact le_rfl
  · exact Nat.le_add_right ..

theorem pageCommand_mem_cellTransfers (x y ch : UInt8) (font : Font) :
    WriteCmd (0xB0 + (y + UInt8.ofNat (font.pages - 1))) ∈ cellTransfers x y ch font := by
  have one := one_le_pages font
  apply List.mem_flatMap.mpr
  refine ⟨font.pages - 1, List.mem_range.mpr (by omega), ?_⟩
  simp [stripTransfers, OledSetPosition]

/-- Right below the display the page command is another command. -/
theorem row_le_of_setsPointer {row : UInt8} (near : row.toNat ≤ 10)
    (pointer : SetsPointer (0xB0 + row)) : row.toNat ≤ 7 := by
  have page : (0xB0 + row).toNat = 176 + row.toNat := by
    rw [UInt8.toNat_add]
    change (176 + row.toNat) % 256 = _
    omega
  simp only [SetsPointer, UInt8.lt_iff_toNat_lt, UInt8.le_iff_toNat_le, page] at pointer
  change 176 + row.toNat < 32 ∨ 176 ≤ 176 + row.toNat ∧ 176 + row.toNat ≤ 183 at pointer
  omega

/-- The characters in front of one are in the font, and their cells on the display. -/
def FitsBefore (x y : Nat) (text : List UInt8) (font : Font) (k : Nat) : Prop :=
  ∀ i < k, font.Knows (text.getD i 0) ∧ (place x y i).2 + font.pages ≤ 8

theorem FitsBefore.row_le {k : Nat} (before : FitsBefore x.toNat y.toNat str.val font k)
    (top : y.toNat ≤ 7) : (place x.toNat y.toNat k).2 ≤ 9 := by
  cases k with
  | zero => exact top.trans (by decide)
  | succ last =>
      have one := one_le_pages font
      have next := row_place_succ x.toNat y.toNat last
      have visible := (before last (Nat.lt_succ_self last)).2
      omega

theorem FitsBefore.iterate {k : Nat} (before : FitsBefore x.toNat y.toNat str.val font k)
    (left : x.toNat ≤ 120) (inside : k < str.val.length) :
    k % 256 = k ∧ ∀ n ≤ k, (fun printing => printing >>= showNext str font)^[n]
      (.ok ⟨x, y, 0, []⟩) = .ok (printed x y str.val font n) := by
  have small : k < 73 := by
    cases k with
    | zero => decide
    | succ last =>
        have one := one_le_pages font
        have visible := (before last (Nat.lt_succ_self last)).2
        exact Nat.succ_lt_succ (@lt_of_row_le x.toNat y.toNat last left (by omega))
  refine ⟨Nat.mod_eq_of_lt (by omega), fun n bound => iterate_showNext left ?_⟩
  intro i earlier
  rw [Nat.mod_eq_of_lt (by omega)]
  exact ⟨by omega, (before i (by omega)).1⟩

/-- A round that succeeds has read a character of the font, and has sent the
command for the last page of its cell. -/
theorem sent_of_round {k : Nat} {next : Printing} (index : k % 256 = k)
    (inside : k < str.val.length)
    (round : showNext str font (printed x y str.val font k) = .ok next) :
    font.Knows (str.val.getD k 0) ∧
      WriteCmd (0xB0 + UInt8.ofNat ((place x.toNat y.toNat k).2 + (font.pages - 1))) ∈
        next.sent := by
  obtain ⟨ch, shown, read, shownChar, added⟩ := exists_of_showNext round
  have position : (printed x y str.val font k).j.toNat = k := UInt8.toNat_ofNat'.trans index
  rw [charAt_of_lt (by rwa [position]), position, Except.ok.injEq] at read
  subst ch
  have known := knows_of_OledShowChar shownChar
  rw [OledShowChar_of_knows _ _ known, Except.ok.injEq] at shownChar
  have command := pageCommand_mem_cellTransfers (printed x y str.val font k).x
    (printed x y str.val font k).y (str.val.getD k 0) font
  have row : (printed x y str.val font k).y + UInt8.ofNat (font.pages - 1) =
      UInt8.ofNat ((place x.toNat y.toNat k).2 + (font.pages - 1)) := (UInt8.ofNat_add ..).symm
  rw [shownChar, row] at command
  refine ⟨known, ?_⟩
  rw [added]
  exact List.mem_append_right _ command

/-- The next character is in the font and fits too, if the call is safe. -/
theorem FitsBefore.next {k n : Nat} {final : Printing}
    (before : FitsBefore x.toNat y.toNat str.val font k) (left : x.toNat ≤ 120)
    (top : y.toNat ≤ 7) (inside : k < str.val.length)
    (run : (fun printing => printing >>= showNext str font)^[n] (.ok ⟨x, y, 0, []⟩) = .ok final)
    (ended : pending str (.ok final) = false)
    (clean : ∀ transfer ∈ final.sent, ∀ byte,
      Item.command byte ∈ decode transfer → SetsPointer byte) :
    FitsBefore x.toNat y.toNat str.val font (k + 1) := by
  obtain ⟨index, reached⟩ := before.iterate left inside
  -- the loop does not end in front of a character
  have later : k < n := by
    by_contra early
    have small : n % 256 = n := Nat.mod_eq_of_lt (by omega)
    rw [reached n (by omega), Except.ok.injEq] at run
    rw [← run, pending_printed (by omega)] at ended
    cases ended
  obtain ⟨rest, rfl⟩ := Nat.exists_eq_add_of_lt later
  rw [Nat.add_right_comm, Nat.add_comm, Function.iterate_add_apply, Function.iterate_succ_apply',
    reached k le_rfl, ok_bind] at run
  obtain ⟨next, round, stays⟩ := sent_of_iterate run
  obtain ⟨known, command⟩ := sent_of_round index inside round
  have pointer := clean _ (stays.subset command) _ (command_mem_WriteCmd.mpr rfl)
  have near := before.row_le top
  have two := pages_le font
  have one := one_le_pages font
  have row : (UInt8.ofNat ((place x.toNat y.toNat k).2 + (font.pages - 1))).toNat =
      (place x.toNat y.toNat k).2 + (font.pages - 1) := by
    rw [UInt8.toNat_ofNat', Nat.mod_eq_of_lt (by omega)]
  have visible := row_le_of_setsPointer (by omega) pointer
  intro i bound
  rcases Nat.lt_succ_iff_lt_or_eq.mp bound with earlier | rfl
  · exact before i earlier
  · exact ⟨known, by omega⟩

theorem fits_of_safe (left : x.toNat ≤ 120) (top : y.toNat ≤ 7) (safe : Safe x y str font) :
    Fits x.toNat y.toNat str.val font := by
  obtain ⟨rounds, transfers, returned, clean⟩ := safe
  obtain ⟨outcome, looped, mapped⟩ := Option.map_eq_some_iff.mp returned
  cases outcome with
  | error fault => cases mapped
  | ok final =>
      cases mapped
      obtain ⟨n, run, ended⟩ := exists_of_whileLoop_eq_some looped
      have all : ∀ k ≤ str.val.length, FitsBefore x.toNat y.toNat str.val font k := by
        intro k
        induction k with
        | zero => exact fun _ i early => absurd early (Nat.not_lt_zero i)
        | succ k inductionHypothesis =>
            intro inside
            exact (inductionHypothesis (Nat.le_of_succ_le inside)).next left top
              (Nat.lt_of_succ_le inside) run ended clean
      have whole := all str.val.length le_rfl
      constructor
      · intro ch listed
        obtain ⟨k, inside, rfl⟩ := List.mem_iff_getElem.mp listed
        have known := (whole k inside).1
        rwa [← List.getElem_eq_getD (h := inside)] at known
      · exact fun k inside => (whole k inside).2

/-- Exactly the texts that fit are safe. -/
theorem safe_iff_fits (left : x.toNat ≤ 120) (top : y.toNat ≤ 7) :
    Safe x y str font ↔ Fits x.toNat y.toNat str.val font :=
  ⟨fits_of_safe left top, safe_of_fits left⟩

/-- The brace has a place in the small font, and in the last corner of the display. -/
theorem safe_iff_fits_brace : Safe 120 7 ⟨[0x7b], by decide⟩ .FONT6x8 :=
  (safe_iff_fits (show (120 : UInt8).toNat ≤ 120 by decide)
    (show (7 : UInt8).toNat ≤ 7 by decide)).mpr (by decide)

/-- The lower half of a letter on the last page is sent behind the command `B8`,
which is not for the pointer. -/
theorem text_not_safe : ¬Safe 0 7 ⟨[0x41], by decide⟩ .FONT8x16 := by
  intro safe
  have unfit : ¬Fits 0 7 [0x41] .FONT8x16 := by decide
  exact unfit (fits_of_safe (by decide) (by decide) safe)

end Text

end WifiIot.Oled
