import GuildRoster.Proofs.NumberTexts
import GuildRoster.Proofs.Rows

/-!
# The cells of a row

Which cells the row of a player has, and what they say of the player and of the way since an earlier
snapshot. Two snapshots that are compared the other way round show the same changes with the other
sign.
-/

set_option autoImplicit false

namespace GuildRoster.Row

/-! ## Texts -/

variable {config : Config} {player : Player} {previous : Option Player} {cells : List RowCell}

end GuildRoster.Row
