/-
**The image tool.**

`pse_image_tool.py` builds the firmware image from a list of modules, each with a file.
`generate_manifest` gives every module its size and an offset, a multiple of sixteen;
`generate_fw` writes the header with one entry of the manifest for each module after the bringup,
the bringup itself, and the other modules at their offsets.

A file is the list of its bytes, and does not change while the tool runs.  `struct.pack` refuses
numbers that do not fit and the tool ends; then there is no image.

Main definitions:

* `Module`, `ImageInfo` — a module with its manifest and its file, and the description of the image;
* `generateManifest`, `headerData`, `generateFw` — the two functions;
* `stitch` — what `main` does with them.
-/

import PseFw.Lib.Image
import Mathlib.Data.Int.Bitwise

set_option relaxedAutoImplicit false
set_option autoImplicit false

namespace PseFw.ImageTool

/-- `HEADER_VER` and `MAN_VER`. -/
abbrev headerVer : ℕ := 0x10002
abbrev manVer : ℕ := 0x10002
/-- `HEADER_SIZE`, the offset of the bringup. -/
abbrev headerSize : ℕ := 0x200
/-- `MAN_OFFSET`, the offset of the manifest. -/
abbrev manOffset : ℕ := 8 * 4
/-- `BUP_1ST_STAGE_SIZE`. -/
abbrev bup1stStageSize : ℕ := 0x3000

/-- `PSE_Manifest` and `Module_Info`, with the content of the file at `raw_bin_path`. -/
structure Module where
  compName : String
  vendorName : String
  codeOffset : ℕ
  moduleSize : ℕ
  loadAddress : ℤ
  compFlags : ℤ
  dbgLevel : ℤ
  traceLevel : ℤ
  rawBinPath : String
  content : List UInt8

/-- `Image_Info`; the count of the modules is the length of the list. -/
structure ImageInfo where
  moduleInfo : List Module
  vectorTbl : ℕ
  iccmLimit : ℕ
  miscOption : ℤ

/-- `is_sub_string`. -/
def isSubString (s₁ s₂ : String) : Bool := s₁.toList <:+: s₂.toList

/-! ### The manifest -/

/-- The offset behind a module. -/
def nextOff (curOff moduleSz : ℕ) : ℕ :=
  if moduleSz &&& 0xf ≠ 0 then curOff + 0x10 + (moduleSz &&& 0xfffffff0) else curOff + moduleSz

/-- A module with its size and its offset. -/
def Module.placedAt (m : Module) (curOff : ℕ) : Module :=
  { m with moduleSize := m.content.length, codeOffset := curOff }

/-- The loop of `generate_manifest`. -/
def manifestFrom : ℕ → List Module → List Module
  | _, [] => []
  | curOff, m :: ms => m.placedAt curOff :: manifestFrom (nextOff curOff m.content.length) ms

/-- `generate_manifest`: the modules with sizes and offsets, and whether the first one is the
bringup. -/
def generateManifest (info : ImageInfo) : ImageInfo × Bool :=
  ({ info with moduleInfo := manifestFrom headerSize info.moduleInfo },
    info.moduleInfo.head?.any fun m => m.compName = "BRINGUP")

/-! ### The header -/

/-- `struct.pack("I", x)`. -/
def packI (x : ℤ) : Option (List UInt8) :=
  if 0 ≤ x ∧ x < 2 ^ 32 then some (Mem.leBytes 4 x.toNat) else none

/-- `struct.pack` of several numbers. -/
def packIs (xs : List ℤ) : Option (List UInt8) := (xs.mapM packI).map List.flatten

/-- `struct.pack("4s", bytes(s, 'ascii'))`. -/
def pack4s (s : String) : Option (List UInt8) :=
  if s.toList.all fun c => c.toNat < 128 then
    some (Mem.padTo 4 (s.toList.map fun c => c.toNat.toUInt8))
  else none

/-- The last number of the header: the count of the modules after the bringup, the limit of the ICCM
and the options. -/
def lastDword (info : ImageInfo) : ℤ :=
  Int.lor (Int.lor (info.moduleInfo.length - 1) ((info.iccmLimit <<< 8 : ℕ) : ℤ))
    (info.miscOption <<< (16 : ℕ))

/-- The header without the checksum and the manifest. -/
def headerStart (info : ImageInfo) (nBringupSz : ℕ) : Option (List UInt8) :=
  (packIs [info.vectorTbl, info.miscOption, nBringupSz, manVer, lastDword info]).map fun l =>
    Mem.leBytes 4 headerVer ++ (Mem.leBytes 2 headerSize ++ Mem.leBytes 2 manOffset) ++ l

/-- An entry of the manifest. -/
def manifestEntry (m : Module) : Option (List UInt8) :=
  (pack4s m.compName).bind fun name => (pack4s m.vendorName).bind fun vendor =>
    (packIs [m.codeOffset, m.moduleSize, m.loadAddress, m.compFlags, m.dbgLevel,
      m.traceLevel]).map fun l => name ++ vendor ++ l

/-- The loop over the modules in `generate_fw`, with `header_data` so far; it is not bound before
the bringup. -/
def headerLoop (info : ImageInfo) : ℕ → List Module → Option (List UInt8) → Option (List UInt8)
  | _, [], headerData => headerData
  | i, m :: ms, headerData =>
      if isSubString "bringup" m.rawBinPath then
        if i ≠ 0 then none
        else (headerStart info m.content.length).bind fun h => headerLoop info (i + 1) ms (some h)
      else if 0 < m.moduleSize then
        headerData.bind fun h => (manifestEntry m).bind fun e =>
          headerLoop info (i + 1) ms (some (h ++ e))
      else headerLoop info (i + 1) ms headerData

/-- `header_data`, filled up as if every module had an entry. -/
def headerData (info : ImageInfo) : Option (List UInt8) :=
  if 16 < info.moduleInfo.length then none
  else (headerLoop info 0 info.moduleInfo none).map fun h =>
    h ++ List.replicate (headerSize - 32 * info.moduleInfo.length) 0

/-! ### The image -/

/-- A module after the bringup. -/
def stitchModule (image : List UInt8) (m : Module) : List UInt8 :=
  if m.compName ≠ "BRINGUP" then
    Mem.padTo m.codeOffset image ++ m.content.take m.moduleSize
  else image

/-- The part of the bringup that is in the checksum. -/
def bupData (content : List UInt8) : List UInt8 :=
  if bup1stStageSize < content.length then content.take bup1stStageSize else content

/-- What is left of it. -/
def bupRest (content : List UInt8) : List UInt8 :=
  if bup1stStageSize < content.length then content.drop bup1stStageSize else []

/-- `generate_fw`: what is written into the output. -/
def generateFw (info : ImageInfo) : Option (List UInt8) :=
  match info.moduleInfo with
  | [] => none
  | bringup :: _ => (headerData info).map fun h =>
      let crcVal := Image.crc32 (bupData bringup.content) (Image.crc32 h 0)
      info.moduleInfo.foldl stitchModule
        (Mem.leBytes 4 crcVal.toNat ++ h ++ bupData bringup.content ++ bupRest bringup.content)

/-- `main`, from the description of the image on. -/
def stitch (info : ImageInfo) : Option (List UInt8) :=
  if (generateManifest info).2 then generateFw (generateManifest info).1 else none

end PseFw.ImageTool
