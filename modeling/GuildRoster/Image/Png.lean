import GuildRoster.Image.Picture

/-!
# Pictures as files

The PNG form of a picture: a signature and chunks, each with its length and a checksum. The pixels
are kept as they are, in stored blocks of the compressed stream, so nothing about the form depends
on how well a compressor works.
-/

set_option autoImplicit false

namespace GuildRoster.Png

def bigEndian (value : Nat) : List UInt8 :=
  [UInt8.ofNat (value / 16777216), UInt8.ofNat (value / 65536), UInt8.ofNat (value / 256),
    UInt8.ofNat value]

def littleEndian (value : Nat) : List UInt8 := [UInt8.ofNat value, UInt8.ofNat (value / 256)]

/-! ## Checksums -/

/-- The remainder of a chunk after one more bit, in the polynomial arithmetic of its checksum. -/
def divideBit (remainder : UInt32) : UInt32 :=
  if remainder &&& 1 = 0 then remainder >>> 1 else (remainder >>> 1) ^^^ 0xEDB88320

def divideByte (remainder : UInt32) (byte : UInt8) : UInt32 :=
  Nat.repeat divideBit 8 (remainder ^^^ byte.toUInt32)

def chunkSum (bytes : ByteArray) : UInt32 := bytes.foldl divideByte 0xFFFFFFFF ^^^ 0xFFFFFFFF

/-- The checksum of the compressed stream: the sum of its bytes and the sum of those sums. -/
def streamSum (bytes : ByteArray) : Nat :=
  let sums := bytes.foldl (fun (sums : Nat × Nat) byte =>
    let plain := (sums.1 + byte.toNat) % 65521
    (plain, (sums.2 + plain) % 65521)) (1, 0)
  sums.2 * 65536 + sums.1

/-! ## The parts of a file -/

/-- A chunk of a file: its length, its kind, its content and its checksum. -/
def chunk (kind : String) (content : ByteArray) : ByteArray :=
  let body := kind.toUTF8 ++ content
  ⟨(bigEndian content.size).toArray⟩ ++ body ++ ⟨(bigEndian (chunkSum body).toNat).toArray⟩

def blockLimit : Nat := 65535

theorem left_after_block {first size : Nat} (more : first + blockLimit < size) :
    size - (first + blockLimit) < size - first := by
  have positive : 0 < blockLimit := by decide
  omega

/-- The stored blocks of the bytes from `first` on; the last block is marked. -/
def storedBlocks (bytes : ByteArray) (first : Nat) (done : ByteArray) : ByteArray :=
  let size := min blockLimit (bytes.size - first)
  let isLast := first + blockLimit ≥ bytes.size
  let head := (if isLast then 1 else 0) :: littleEndian size ++ littleEndian (blockLimit - size)
  let done := done ++ ⟨head.toArray⟩ ++ bytes.extract first (first + size)
  if _ : first + blockLimit < bytes.size then storedBlocks bytes (first + blockLimit) done
  else done
termination_by bytes.size - first
decreasing_by exact left_after_block (by assumption)

/-- The bytes of the pixels, row by row; a row starts with the number of its filter, which is that
of no filter, and a pixel has its three colours and full opacity. -/
def pixelBytes (picture : Picture) : ByteArray :=
  (List.range picture.height).foldl (fun bytes y =>
    (List.range picture.width).foldl (fun bytes x =>
      match picture.pixel? x y with
      | some color => (((bytes.push color.red).push color.green).push color.blue).push 255
      | none => bytes) (bytes.push 0)) .empty

def encode (picture : Picture) : ByteArray :=
  let signature := [137, 80, 78, 71, 13, 10, 26, 10]
  let header := bigEndian picture.width ++ bigEndian picture.height ++ [8, 6, 0, 0, 0]
  let pixels := pixelBytes picture
  let stream := storedBlocks pixels 0 ⟨#[0x78, 0x01]⟩
    ++ ⟨(bigEndian (streamSum pixels)).toArray⟩
  ⟨signature.toArray⟩ ++ chunk "IHDR" ⟨header.toArray⟩ ++ chunk "IDAT" stream
    ++ chunk "IEND" .empty

end GuildRoster.Png
