/-!
# Glyphs

The letters of pictures: eight rows of eight dots each. A row is a byte whose lowest bit is the dot
on the left, and the rows of a glyph are written from the top in one number.
-/

set_option autoImplicit false

namespace GuildRoster.Glyph

def basic : Array UInt64 := #[
    0x0000000000000000, 0x183c3c1818001800, 0x3636000000000000, 0x36367f367f363600,
    0x0c3e031e301f0c00, 0x006333180c666300, 0x1c361c6e3b336e00, 0x0606030000000000,
    0x180c0606060c1800, 0x060c1818180c0600, 0x00663cff3c660000, 0x000c0c3f0c0c0000,
    0x00000000000c0c06, 0x0000003f00000000, 0x00000000000c0c00, 0x6030180c06030100,
    0x3e63737b6f673e00, 0x0c0e0c0c0c0c3f00, 0x1e33301c06333f00, 0x1e33301c30331e00,
    0x383c36337f307800, 0x3f031f3030331e00, 0x1c06031f33331e00, 0x3f3330180c0c0c00,
    0x1e33331e33331e00, 0x1e33333e30180e00, 0x000c0c00000c0c00, 0x000c0c00000c0c06,
    0x180c0603060c1800, 0x00003f00003f0000, 0x060c1830180c0600, 0x1e3330180c000c00,
    0x3e637b7b7b031e00, 0x0c1e33333f333300, 0x3f66663e66663f00, 0x3c66030303663c00,
    0x1f36666666361f00, 0x7f46161e16467f00, 0x7f46161e16060f00, 0x3c66030373667c00,
    0x3333333f33333300, 0x1e0c0c0c0c0c1e00, 0x7830303033331e00, 0x6766361e36666700,
    0x0f06060646667f00, 0x63777f7f6b636300, 0x63676f7b73636300, 0x1c36636363361c00,
    0x3f66663e06060f00, 0x1e3333333b1e3800, 0x3f66663e36666700, 0x1e33070e38331e00,
    0x3f2d0c0c0c0c1e00, 0x3333333333333f00, 0x33333333331e0c00, 0x6363636b7f776300,
    0x6363361c1c366300, 0x3333331e0c0c1e00, 0x7f6331184c667f00, 0x1e06060606061e00,
    0x03060c1830604000, 0x1e18181818181e00, 0x081c366300000000, 0x00000000000000ff,
    0x0c0c180000000000, 0x00001e303e336e00, 0x0706063e66663b00, 0x00001e3303331e00,
    0x3830303e33336e00, 0x00001e333f031e00, 0x1c36060f06060f00, 0x00006e33333e301f,
    0x0706366e66666700, 0x0c000e0c0c0c1e00, 0x300030303033331e, 0x070666361e366700,
    0x0e0c0c0c0c0c1e00, 0x0000337f7f6b6300, 0x00001f3333333300, 0x00001e3333331e00,
    0x00003b66663e060f, 0x00006e33333e3078, 0x00003b6e66060f00, 0x00003e031e301f00,
    0x080c3e0c0c2c1800, 0x0000333333336e00, 0x00003333331e0c00, 0x0000636b7f7f3600,
    0x000063361c366300, 0x00003333333e301f, 0x00003f190c263f00, 0x380c0c070c0c3800,
    0x1818180018181800, 0x070c0c380c0c0700, 0x6e3b000000000000, 0x0000000000000000]

/-- The glyphs of the characters from the no-break space to the end of the first 256 characters.
Two accents without a glyph have that of the question mark. -/
def latin : Array UInt64 := #[
    0x0000000000000000, 0x1818001818181800, 0x18187e03037e1818, 0x1c36260f06673f00,
    0x0000633e363e6300, 0x33331e3f0c3f0c0c, 0x1818180018181800, 0x7cc61c36361c331e,
    0x3300000000000000, 0x3c4299858599423c, 0x3c36367c00000000, 0x00cc663366cc0000,
    0x0000003f30300000, 0x0000000000000000, 0x3c429da59da5423c, 0x7e00000000000000,
    0x1c36361c00000000, 0x18187e1818007e00, 0x180c000000000000, 0x1e3330180c000c00,
    0x1e3330180c000c00, 0x00006666663e0603, 0xfedbdbded8d8d800, 0x0000001818000000,
    0x000000000018301e, 0x080c081c00000000, 0x1c36361c00000000, 0x003366cc66330000,
    0xc36333bdecf6f303, 0xc363337bcc6633f0, 0x03c463b4dbace680, 0x0c000c0603331e00,
    0x07001c36637f6300, 0x70001c36637f6300, 0x1c36003e637f6300, 0x6e3b003e637f6300,
    0x631c36637f636300, 0x0c0c001e333f3300, 0x7c36337f33337300, 0x1e3303331e18301e,
    0x07003f061e063f00, 0x38003f061e063f00, 0x0c123f061e063f00, 0x36003f061e063f00,
    0x07001e0c0c0c1e00, 0x38001e0c0c0c1e00, 0x0c12001e0c0c1e00, 0x33001e0c0c0c1e00,
    0x3f666f6f66663f00, 0x3f0033373f3b3300, 0x0e00183c663c1800, 0x7000183c663c1800,
    0x3c66183c663c1800, 0x6e3b003e63633e00, 0xc3183c66663c1800, 0x00361c081c360000,
    0x5c36737b6f361d00, 0x0e00666666663c00, 0x7000666666663c00, 0x3c66006666663c00,
    0x3300333333331e00, 0x700066663c181800, 0x0f063e66663e060f, 0x001e331f331f0303,
    0x07001e303e337e00, 0x38001e303e337e00, 0x7ec33c607c66fc00, 0x6e3b1e303e337e00,
    0x33001e303e337e00, 0x0c0c1e303e337e00, 0x0000fe30fe33fe00, 0x00001e03031e301c,
    0x07001e333f031e00, 0x38001e333f031e00, 0x7ec33c667e063c00, 0x33001e333f031e00,
    0x07000e0c0c0c1e00, 0x1c000e0c0c0c1e00, 0x3e631c1818183c00, 0x33000e0c0c0c1e00,
    0x1b0e1b303e331e00, 0x001f001f33333300, 0x0007001e33331e00, 0x0038001e33331e00,
    0x1e33001e33331e00, 0x6e3b001e33331e00, 0x0033001e33331e00, 0x1818007e00181800,
    0x00603c767e6e3c06, 0x0007003333337e00, 0x0038003333337e00, 0x1e33003333337e00,
    0x0033003333337e00, 0x00380033333e301f, 0x0000063e663e0600, 0x00330033333e301f]

def unknown : UInt64 := 0x1e3330180c000c00

/-- The glyph of a character. Control characters before the space are empty. -/
def ofChar (character : Char) : UInt64 :=
  let code := character.toNat
  if code < 0x20 then 0
  else if code < 0x80 then basic.getD (code - 0x20) unknown
  else if 0xA0 ≤ code then latin.getD (code - 0xA0) unknown
  else unknown

def hasDot (glyph : UInt64) (row column : Nat) : Bool :=
  glyph.toNat.testBit ((7 - row) * 8 + column)

end GuildRoster.Glyph
