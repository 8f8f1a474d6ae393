import GuildRoster.Binary64.Fixed

/-!
# Figures

How numbers are shown: grouped in thousands, as signed changes, and as parts of the album.
-/

set_option autoImplicit false

namespace GuildRoster

def albumTotal : Int64 := 2160

def achievementTotal : Int64 := 70

def decimalDigits (number : Nat) : List Char := Nat.toDigits 10 number

def Figures.plain (number : Int64) : String := toString number.toInt

def Figures.grouped.spaced : List Char → List Char
  | [] => []
  | digit :: rest =>
    if rest.length % 3 = 0 ∧ rest ≠ [] then digit :: ' ' :: Figures.grouped.spaced rest
    else digit :: Figures.grouped.spaced rest

def Figures.grouped (number : Int64) : String :=
  String.ofList ((if number < 0 then ['-'] else [])
    ++ Figures.grouped.spaced (decimalDigits number.toInt.natAbs))

def Figures.change (difference : Int64) : String :=
  String.ofList ((if difference < 0 then '-' else '+') :: decimalDigits difference.toInt.natAbs)

def albumFraction (items : Int64) : Float :=
  Binary64.ofInt64 items / Binary64.ofInt64 albumTotal

def albumPercent (items : Int64) : Float := 100 * albumFraction items

def Figures.albumChange (items : Int64) : String :=
  let percent := albumPercent items
  if percent < 0 then "-" ++ Binary64.fixed 2 (-percent) else "+" ++ Binary64.fixed 2 percent

end GuildRoster
