import PhasePortrait.Raster.Frame

/-!
# Picture files

A picture as it is written to a file: its sides, which must fit 32 bits, and four bytes per pixel.
The file is a PNG. Its data is not compressed: the format allows for blocks that are stored as they
are.
-/

namespace PhasePortrait

/-- A picture ready to be written. -/
structure Picture where
  width : Nat
  height : Nat
  /-- Red, green, blue and opacity of each pixel, row by row. -/
  bytes : List Nat
deriving DecidableEq

namespace Picture

/-- The picture of a frame. Refuses sides that do not fit, and a frame whose pixels are not as many
as its sides say. -/
def ofFrame {α : Type} [Scalar α] (f : Frame α) : Except (SetupError α) Picture :=
  if UInt32.size ≤ f.width ∨ UInt32.size ≤ f.height then
    .error (.invalidDimensions f.width f.height)
  else
    let bytes := f.rgbaBytes
    if bytes.length = 4 * (f.width * f.height) then
      .ok { width := f.width, height := f.height, bytes }
    else .error (.io "RGBA buffer size mismatch")

/-! ## The file -/

/-- A word as four bytes, the highest first. -/
def wordBytes (n : Nat) : List UInt8 :=
  [24, 16, 8, 0].map fun shift => UInt8.ofNat (n >>> shift)

/-- One byte more in the checksum of a chunk, bit by bit. -/
def crcByte (crc : UInt32) (byte : UInt8) : UInt32 :=
  (List.range 8).foldl
    (fun c _ => if c &&& 1 == 1 then (c >>> 1) ^^^ 0xEDB88320 else c >>> 1) (crc ^^^ byte.toUInt32)

/-- The checksum of a chunk. -/
def crc (bytes : ByteArray) : UInt32 := bytes.foldl crcByte 0xFFFFFFFF ^^^ 0xFFFFFFFF

/-- The checksum of the data: the sum of the bytes and the sum of those sums. -/
def adler (bytes : ByteArray) : Nat :=
  let (a, b) := bytes.foldl
    (fun (a, b) byte =>
      let a := (a + byte.toNat) % 65521
      (a, (b + a) % 65521)) (1, 0)
  b * 65536 + a

/-- A part of the file: its length, its kind, its contents and their checksum. -/
def chunk (kind : String) (contents : ByteArray) : ByteArray :=
  let body := kind.toUTF8 ++ contents
  ⟨(wordBytes contents.size).toArray⟩ ++ body ++ ⟨(wordBytes (crc body).toNat).toArray⟩

/-- The size of a stored block, at most. -/
def blockSize : Nat := 65535

/-- A block of data that is stored as it is: whether it is the last, its size, the complement of its
size, and the data. -/
def storedBlock (last : Bool) (data : ByteArray) : ByteArray :=
  let size := UInt16.ofNat data.size
  let low (w : UInt16) : UInt8 := w.toUInt8
  let high (w : UInt16) : UInt8 := (w >>> 8).toUInt8
  ⟨#[if last then 1 else 0, low size, high size, low (~~~size), high (~~~size)]⟩ ++ data

/-- The data in stored blocks. -/
def stored (data : ByteArray) : ByteArray :=
  let count := max 1 ((data.size + blockSize - 1) / blockSize)
  (List.range count).foldl
    (fun out i =>
      out ++ storedBlock (i + 1 == count) (data.extract (i * blockSize) ((i + 1) * blockSize)))
    ByteArray.empty

/-- The rows of the picture, each behind the mark that it is not filtered. -/
def rows (p : Picture) : ByteArray :=
  let bytes : ByteArray := ⟨(p.bytes.map UInt8.ofNat).toArray⟩
  (List.range p.height).foldl
    (fun out y => (out.push 0) ++ bytes.extract (y * 4 * p.width) ((y + 1) * 4 * p.width))
    ByteArray.empty

/-- The file. -/
def encode (p : Picture) : ByteArray :=
  let data := p.rows
  let header : ByteArray :=
    ⟨(wordBytes p.width ++ wordBytes p.height ++ [8, 6, 0, 0, 0]).toArray⟩
  ⟨#[0x89, 0x50, 0x4E, 0x47, 0x0D, 0x0A, 0x1A, 0x0A]⟩ ++ chunk "IHDR" header ++
    chunk "IDAT" (⟨#[0x78, 0x01]⟩ ++ stored data ++ ⟨(wordBytes (adler data)).toArray⟩) ++
    chunk "IEND" ByteArray.empty

end Picture

end PhasePortrait
