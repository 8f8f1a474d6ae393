import GuildRoster.Proofs.RowIndependence
import Mathlib.Data.List.Nodup
import Mathlib.Logic.Relation

/-!
# Rosters to compare with

A block asks the roster that it is compared with for the names of its own players and for nothing
else. So the order of that roster and its other players do not show in the picture, and a player who
is compared with himself has no changes to show.
-/

set_option autoImplicit false

namespace GuildRoster

open Relation (ReflTransGen)

/-! ## Players by name -/

namespace Roster

variable {block roster other : Roster} {player : Player} {name : String}

theorem findByName?_eq_some_iff (distinct : (roster.map (·.name)).Nodup) :
    roster.findByName? name = some player ↔ player ∈ roster ∧ player.name = name := by
  constructor
  · intro found
    exact ⟨List.mem_of_find?_eq_some found, by simpa using List.find?_some found⟩
  · rintro ⟨member, rfl⟩
    cases found : roster.findByName? player.name with
    | none => simpa using List.find?_eq_none.1 found player member
    | some first =>
      have same : first.name = player.name := by simpa using List.find?_some found
      rw [List.inj_on_of_nodup_map distinct (List.mem_of_find?_eq_some found) member same]

/-- Rosters of the same players find the same player, as no two of them have the same name. -/
theorem findByName?_perm (distinct : (roster.map (·.name)).Nodup) (same : roster.Perm other) :
    roster.findByName? name = other.findByName? name := by
  have also : (other.map (·.name)).Nodup := (same.map _).nodup_iff.1 distinct
  ext player
  rw [findByName?_eq_some_iff distinct, findByName?_eq_some_iff also, same.mem_iff]

/-- The players of a roster who have the names of players in a block. -/
def namesakes (block roster : Roster) : Roster :=
  roster.filter fun player => player.name ∈ block.map (·.name)

theorem findByName?_namesakes (member : player ∈ block) :
    (namesakes block roster).findByName? player.name = roster.findByName? player.name := by
  have known : player.name ∈ block.map (·.name) := List.mem_map_of_mem member
  have asked : ∀ other : Player,
      (decide (other.name ∈ block.map (·.name)) && other.name == player.name)
        = (other.name == player.name) := by
    intro other
    by_cases same : other.name = player.name
    · simp only [same, known, decide_true, Bool.true_and]
    · simp only [beq_false_of_ne same, Bool.and_false]
  simp only [findByName?, namesakes, List.find?_filter, Bool.decide_and, Bool.decide_eq_true, asked]

/-- One change to a roster that a block is compared with: its players change places, or a player
whose name is not in the block comes or goes. -/
inductive Regroups (block : Roster) : Roster → Roster → Prop where
  | permute {roster other : Roster} (same : roster.Perm other) : Regroups block roster other
  | add {front back : Roster} {player : Player}
      (stranger : player.name ∉ block.map (·.name)) :
      Regroups block (front ++ back) (front ++ player :: back)
  | remove {front back : Roster} {player : Player}
      (stranger : player.name ∉ block.map (·.name)) :
      Regroups block (front ++ player :: back) (front ++ back)

private theorem namesakes_stranger (stranger : player.name ∉ block.map (·.name))
    (front back : Roster) :
    namesakes block (front ++ player :: back) = namesakes block (front ++ back) := by
  simp only [namesakes, List.filter_append, List.filter_cons, stranger, decide_false,
    Bool.false_eq_true, if_false]

/-- No change touches the players that the block asks for. -/
theorem Regroups.perm (regroups : Regroups block roster other) :
    (namesakes block roster).Perm (namesakes block other) := by
  cases regroups with
  | permute same => exact same.filter _
  | add stranger => rw [namesakes_stranger stranger]
  | remove stranger => rw [namesakes_stranger stranger]

theorem findByName?_regrouped (distinct : (roster.map (·.name)).Nodup)
    (regrouped : ReflTransGen (Regroups block) roster other) (member : player ∈ block) :
    other.findByName? player.name = roster.findByName? player.name := by
  have same : (namesakes block roster).Perm (namesakes block other) := by
    induction regrouped with
    | refl => exact .refl _
    | tail _ last ih => exact ih.trans last.perm
  have few : ((namesakes block roster).map (·.name)).Nodup :=
    distinct.sublist (List.filter_sublist.map _)
  rw [← findByName?_namesakes member, ← findByName?_perm few same, findByName?_namesakes member]

end Roster

/-! ## Rows -/

namespace Row

/-- A player has no changes since himself. -/
theorem build_self (config : Config) (player : Player) :
    build config player (some player) = build config player none := by
  cases membership : player.membership with
  | none =>
    simp only [build, showChanges, showChange_self, membership]
    rfl
  | some figures =>
    simp only [build, showChanges, showChange_self, showGuildChanges, membership]
    rfl

end Row

/-! ## Blocks -/

namespace Block

variable {config : Config} {compare otherCompare : Option Roster} {block roster : Roster}

/-- A block is drawn from the rows of its players. -/
theorem render_congr (rows : ∀ player ∈ block,
      Row.build config player (compare.bind fun roster => roster.findByName? player.name) =
      Row.build config player (otherCompare.bind fun roster => roster.findByName? player.name)) :
    render config compare block = render config otherCompare block := by
  have slots : drawSlot config compare block = drawSlot config otherCompare block := by
    funext picture slot
    refine drawSlot_congr (fun index _ => ?_) picture
    unfold cellsAt?
    cases found : block[index]? with
    | none => rfl
    | some player => exact congrArg some (rows player (List.mem_of_getElem? found))
  simp only [render, slots]

/-- A block that is compared with a roster of distinct names looks the same whatever the order of
that roster is and whichever other players it has; and if the players of the block are its own, the
block looks as if it were compared with none. Its picture exists unless a change is no number of 64
bits. -/
theorem render_compares_namesakes (config : Config) {block roster : Roster}
    (distinct : (roster.map (·.name)).Nodup) :
    (∀ other, ReflTransGen (Roster.Regroups block) roster other →
      render config (some other) block = render config (some roster) block) ∧
    (block ⊆ roster → render config (some roster) block = render config none block) ∧
    (rowsEnd block.length < rangeSize 32 →
      Succeeds (render config none block) ∧
        ((∀ player ∈ block, ¬ Row.FaultyIn (some roster) player) →
          Succeeds (render config (some roster) block))) := by
  refine ⟨?regrouped, ?own, ?drawn⟩
  case regrouped =>
    intro other regrouped
    refine render_congr fun player member => ?_
    rw [Option.bind_some, Option.bind_some,
      Roster.findByName?_regrouped distinct regrouped member]
  case own =>
    intro own
    refine render_congr fun player member => ?_
    have found := (Roster.findByName?_eq_some_iff distinct).2 ⟨own member, rfl⟩
    rw [Option.bind_some, found, Option.bind_none, Row.build_self]
  case drawn =>
    intro fits
    refine ⟨(render_failsJust config none fits).succeeds ?_, fun sound => ?_⟩
    · rintro ⟨_, _, _, found, _⟩
      cases found
    · refine (render_failsJust config (some roster) fits).succeeds ?_
      rintro ⟨player, member, faulty⟩
      exact sound player member faulty

theorem render_compares_grown_member :
    ∃ picture, render {} (some [grownFrom, { name := "B" }]) [grownMember] = .ok picture ∧
      render {} (some [{ name := "C" }, { name := "B" }, grownFrom]) [grownMember] = .ok picture ∧
      render {} (some grownAbove) [grownMember] = render {} none [grownMember] := by
  have regrouped : ReflTransGen (Roster.Regroups [grownMember]) [grownFrom, { name := "B" }]
      [{ name := "C" }, { name := "B" }, grownFrom] := by
    refine .tail (.single (.permute (.swap _ _ _))) ?_
    exact @Roster.Regroups.add _ [] [{ name := "B" }, grownFrom] { name := "C" } (by decide)
  obtain ⟨same, _, drawn⟩ := @render_compares_namesakes {} [grownMember]
    [grownFrom, { name := "B" }] (by decide)
  obtain ⟨picture, shown⟩ := (drawn (by decide)).2 fun player member assumed => by
    obtain rfl := List.mem_singleton.1 member
    obtain ⟨before, found, faulty⟩ := assumed
    obtain rfl : grownFrom = before := by
      simpa [Roster.findByName?, grownFrom, grownMember] using found
    exact not_faulty_grownMember faulty
  have own := (@render_compares_namesakes {} [grownMember] grownAbove (by decide)).2.1
    (by simp [grownAbove])
  exact ⟨picture, shown, (same _ regrouped).trans shown, own⟩

end Block

end GuildRoster
