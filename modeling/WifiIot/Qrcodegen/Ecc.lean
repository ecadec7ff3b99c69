import WifiIot.Coding.Distance
import WifiIot.Coding.Interleave
import WifiIot.Qrcodegen.Buffer
import WifiIot.Qrcodegen.Field

/-!
# Error correction codewords

The data codewords of a symbol are cut into blocks, a remainder of a division is put
behind each of them, and the blocks are interleaved.  Each remainder is computed behind the
data, in the same buffer.

Source: `qrcode_gen/src/qrcodegen.c`.
-/

namespace WifiIot.Qrcodegen

open Coding Raster

/-- `int version`, from `qrcodegen_VERSION_MIN` to `qrcodegen_VERSION_MAX` as the header asks. -/
structure Version where
  ver : Nat
  least : 1 ≤ ver
  most : ver ≤ 40
  deriving DecidableEq

inductive qrcodegen_Ecc where
  | LOW
  | MEDIUM
  | QUARTILE
  | HIGH
  deriving DecidableEq

/-- The first entry is the padding, which is not a number in the source. -/
def ECC_CODEWORDS_PER_BLOCK : qrcodegen_Ecc → List Nat
  | .LOW => [0, 7, 10, 15, 20, 26, 18, 20, 24, 30, 18, 20, 24, 26, 30, 22, 24, 28, 30, 28, 28, 28, 28,
      30, 30, 26, 28, 30, 30, 30, 30, 30, 30, 30, 30, 30, 30, 30, 30, 30, 30]
  | .MEDIUM => [0, 10, 16, 26, 18, 24, 16, 18, 22, 22, 26, 30, 22, 22, 24, 24, 28, 28, 26, 26, 26, 26,
      28, 28, 28, 28, 28, 28, 28, 28, 28, 28, 28, 28, 28, 28, 28, 28, 28, 28, 28]
  | .QUARTILE => [0, 13, 22, 18, 26, 18, 24, 18, 22, 20, 24, 28, 26, 24, 20, 30, 24, 28, 28, 26, 30, 28,
      30, 30, 30, 30, 28, 30, 30, 30, 30, 30, 30, 30, 30, 30, 30, 30, 30, 30, 30]
  | .HIGH => [0, 17, 28, 22, 16, 22, 28, 26, 26, 24, 28, 24, 28, 22, 24, 24, 30, 28, 28, 26, 28, 30, 24,
      30, 30, 30, 30, 30, 30, 30, 30, 30, 30, 30, 30, 30, 30, 30, 30, 30, 30]

def NUM_ERROR_CORRECTION_BLOCKS : qrcodegen_Ecc → List Nat
  | .LOW => [0, 1, 1, 1, 1, 1, 2, 2, 2, 2, 4, 4, 4, 4, 4, 6, 6, 6, 6, 7, 8, 8, 9, 9, 10, 12, 12, 12, 13,
      14, 15, 16, 17, 18, 19, 19, 20, 21, 22, 24, 25]
  | .MEDIUM => [0, 1, 1, 1, 2, 2, 4, 4, 4, 5, 5, 5, 8, 9, 9, 10, 10, 11, 13, 14, 16, 17, 17, 18, 20, 21,
      23, 25, 26, 28, 29, 31, 33, 35, 37, 38, 40, 43, 45, 47, 49]
  | .QUARTILE => [0, 1, 1, 2, 2, 4, 4, 6, 6, 8, 8, 8, 10, 12, 16, 12, 17, 16, 18, 21, 20, 23, 23, 25, 27,
      29, 34, 34, 35, 38, 40, 43, 45, 48, 51, 53, 56, 59, 62, 65, 68]
  | .HIGH => [0, 1, 1, 2, 4, 4, 4, 5, 6, 8, 8, 11, 11, 16, 16, 18, 16, 19, 21, 25, 25, 25, 34, 30, 32, 35,
      37, 40, 42, 45, 48, 51, 54, 57, 60, 63, 66, 70, 74, 77, 81]

def getNumRawDataModules (version : Version) : Nat :=
  let ver := version.ver
  let result := (16 * ver + 128) * ver + 64
  if 2 ≤ ver then
    let numAlign := ver / 7 + 2
    let result := result - ((25 * numAlign - 10) * numAlign - 55)
    if 7 ≤ ver then result - 36 else result
  else result

section Numbers

variable (version : Version) (ecl : qrcodegen_Ecc)

def numBlocks : Nat := (NUM_ERROR_CORRECTION_BLOCKS ecl).getD version.ver 0

def blockEccLen : Nat := (ECC_CODEWORDS_PER_BLOCK ecl).getD version.ver 0

def rawCodewords : Nat := getNumRawDataModules version / 8

def getNumDataCodewords : Nat := rawCodewords version - blockEccLen version ecl * numBlocks version ecl

def numShortBlocks : Nat := numBlocks version ecl - rawCodewords version % numBlocks version ecl

def shortBlockDataLen : Nat := rawCodewords version / numBlocks version ecl - blockEccLen version ecl

/-- `datLen` of a block. -/
def datLen (i : Nat) : Nat :=
  shortBlockDataLen version ecl + if i < numShortBlocks version ecl then 0 else 1

end Numbers

/-! ## The remainder of one block -/

/-- One round of `reedSolomonComputeDivisor`: every place times the root, and the next one. -/
def multiplyRoot (root : UInt8) : List UInt8 → List UInt8
  | [] => []
  | [last] => [reedSolomonMultiply last root]
  | first :: next :: rest =>
      (reedSolomonMultiply first root ^^^ next) :: multiplyRoot root (next :: rest)

def reedSolomonComputeDivisor (degree : Nat) : List UInt8 :=
  ((List.range degree).foldl (fun state _ =>
    (multiplyRoot state.2 state.1, reedSolomonMultiply state.2 0x02))
    (List.replicate (degree - 1) 0 ++ [1], (1 : UInt8))).1

/-- One round of `reedSolomonComputeRemainder`. -/
def divideRound (generator result : List UInt8) (value : UInt8) : List UInt8 :=
  let factor := value ^^^ result.headD 0
  List.zipWith (fun place coefficient => place ^^^ reedSolomonMultiply coefficient factor)
    (result.tail ++ [0]) generator

def reedSolomonComputeRemainder (data generator : List UInt8) (degree : Nat) : List UInt8 :=
  data.foldl (divideRound generator) (List.replicate degree 0)

/-! ## The blocks -/

section Blocks

variable (version : Version) (ecl : qrcodegen_Ecc)

/-- Where `k` comes to for a byte of the data. -/
def dataPlace (i j : Nat) : Nat :=
  if j < shortBlockDataLen version ecl then i + j * numBlocks version ecl
  else i + j * numBlocks version ecl - numShortBlocks version ecl

/-- Where `k` comes to for a byte behind the data. -/
def eccPlace (i j : Nat) : Nat :=
  getNumDataCodewords version ecl + i + j * numBlocks version ecl

/-- One round of `addEccAndInterleave`, with `dat - data`, `data` and `result`. -/
def addBlock (rsdiv : List UInt8) (state : Nat × List UInt8 × List UInt8) (i : Nat) :
    Run (Nat × List UInt8 × List UInt8) := do
  let (dat, data, result) := state
  let datLen := datLen version ecl i
  let ecc := getNumDataCodewords version ecl
  let block ← (List.range datLen).mapM fun j => load .data data (dat + j)
  let remainder := reedSolomonComputeRemainder block rsdiv (blockEccLen version ecl)
  let data ← (List.range (blockEccLen version ecl)).foldlM (fun data j =>
    store .data data (ecc + j) (remainder.getD j 0)) data
  let result ← (List.range datLen).foldlM (fun result j => do
    let byte ← load .data data (dat + j)
    store .result result (dataPlace version ecl i j) byte) result
  let result ← (List.range (blockEccLen version ecl)).foldlM (fun result j => do
    let byte ← load .data data (ecc + j)
    store .result result (eccPlace version ecl i j) byte) result
  .ok (dat + datLen, data, result)

/-- `data` and `result` afterwards. -/
def addEccAndInterleave (data : List UInt8) (result : List UInt8) : Run (List UInt8 × List UInt8) := do
  let rsdiv := reedSolomonComputeDivisor (blockEccLen version ecl)
  let (_, data, result) ← (List.range (numBlocks version ecl)).foldlM (addBlock version ecl rsdiv)
    (0, data, result)
  .ok (data, result)

end Blocks

/-! ## The numbers of a version -/

def versions : List Version :=
  (List.finRange 40).map fun k : Fin 40 => ⟨k.val + 1, Nat.succ_le_succ (Nat.zero_le _), k.isLt⟩

def levels : List qrcodegen_Ecc := [.LOW, .MEDIUM, .QUARTILE, .HIGH]

theorem mem_versions (version : Version) : version ∈ versions := by
  obtain ⟨ver, least, most⟩ := version
  refine List.mem_map.mpr ⟨⟨ver - 1, by omega⟩, List.mem_finRange _, ?_⟩
  simp only [Version.mk.injEq]
  omega

theorem mem_levels (ecl : qrcodegen_Ecc) : ecl ∈ levels := by
  cases ecl <;> decide

/-- What `getNumRawDataModules` and `reedSolomonComputeDivisor` rely on, and the bounds that the
comments give. -/
structure Sound (version : Version) (ecl : qrcodegen_Ecc) : Prop where
  modules : 208 ≤ getNumRawDataModules version ∧ getNumRawDataModules version ≤ 29648
  blocks : 0 < numBlocks version ecl
  degree : 1 ≤ blockEccLen version ecl ∧ blockEccLen version ecl ≤ 30
  room : blockEccLen version ecl ≤ rawCodewords version / numBlocks version ecl
  codewords : 9 ≤ getNumDataCodewords version ecl ∧ getNumDataCodewords version ecl ≤ 2956
  /-- The powers of 2 are different for so many places. -/
  short : shortBlockDataLen version ecl + 1 + blockEccLen version ecl ≤ 255

theorem sound (version : Version) (ecl : qrcodegen_Ecc) : Sound version ecl := by
  have all : ∀ version ∈ versions, ∀ ecl ∈ levels,
      (208 ≤ getNumRawDataModules version ∧ getNumRawDataModules version ≤ 29648) ∧
      0 < numBlocks version ecl ∧
      (1 ≤ blockEccLen version ecl ∧ blockEccLen version ecl ≤ 30) ∧
      blockEccLen version ecl ≤ rawCodewords version / numBlocks version ecl ∧
      (9 ≤ getNumDataCodewords version ecl ∧ getNumDataCodewords version ecl ≤ 2956) ∧
      shortBlockDataLen version ecl + 1 + blockEccLen version ecl ≤ 255 := by
    decide +kernel
  obtain ⟨modules, blocks, degree, room, codewords, short⟩ :=
    all version (mem_versions version) ecl (mem_levels ecl)
  exact ⟨modules, blocks, degree, room, codewords, short⟩

/-- The blocks as `addEccAndInterleave` lays them out. -/
def layout (version : Version) (ecl : qrcodegen_Ecc) : Layout where
  count := numBlocks version ecl
  short := shortBlockDataLen version ecl
  shortCount := numShortBlocks version ecl
  checks := blockEccLen version ecl
  positive := (sound version ecl).blocks
  few := Nat.sub_le _ _

theorem dataTotal_layout (version : Version) (ecl : qrcodegen_Ecc) :
    (layout version ecl).dataTotal = getNumDataCodewords version ecl := by
  have blocks := (sound version ecl).blocks
  have room := (sound version ecl).room
  have parts := Nat.div_add_mod (rawCodewords version) (numBlocks version ecl)
  have rest := Nat.mod_lt (rawCodewords version) blocks
  have product : blockEccLen version ecl * numBlocks version ecl ≤
      rawCodewords version / numBlocks version ecl * numBlocks version ecl :=
    Nat.mul_le_mul_right _ room
  rw [Nat.mul_comm (numBlocks version ecl)] at parts
  change shortBlockDataLen version ecl * numBlocks version ecl +
    (numBlocks version ecl - numShortBlocks version ecl) = getNumDataCodewords version ecl
  rw [shortBlockDataLen, numShortBlocks, getNumDataCodewords, Nat.sub_mul]
  omega

theorem total_layout (version : Version) (ecl : qrcodegen_Ecc) :
    (layout version ecl).total = rawCodewords version := by
  have least := (sound version ecl).codewords.1
  rw [Layout.total, dataTotal_layout]
  change getNumDataCodewords version ecl + blockEccLen version ecl * numBlocks version ecl = _
  rw [getNumDataCodewords] at least ⊢
  omega

end WifiIot.Qrcodegen
