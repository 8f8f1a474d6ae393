import GuildRoster.Proofs.ImageExport

/-!
# Exports of empty rosters

A roster without players has no blocks, so an export of all its players draws and writes nothing.
An export of members alone always has its one block, and so makes a picture of the headings even
when there is no player at all.
-/

set_option autoImplicit false

namespace GuildRoster

namespace Block

theorem plan_nil (onlyMembers : Bool) : plan [] onlyMembers = if onlyMembers then [[]] else [] := by
  cases onlyMembers with
  | false => rw [plan, chunks]; rfl
  | true => rfl

end Block

namespace Export

/-- Without players no row can fail to be built. -/
theorem not_faulty_of_empty (source : Source) (compare : Option Roster) {key : String}
    {onlyMembers : Bool} {world : World} (empty : (source.roster key world.files).1 = []) :
    ¬ FaultyBlocks compare (exportedBlocks source key onlyMembers world) := by
  intro faulty
  obtain ⟨block, planned, player, member, _⟩ := faulty
  rw [exportedBlocks, empty, Block.plan_nil] at planned
  cases onlyMembers with
  | false => cases planned
  | true =>
    rw [List.mem_singleton.1 planned] at member
    cases member

/-- An export of an empty roster is cancelled, or it goes on without any picture, and in both cases
nothing is written. Only when members alone are exported, one picture without players is written, or
fails to be. -/
theorem asImageWith_of_empty_roster {save : PictureWriter} (saves : SavesPictures save)
    (source : Source) (config : Config) (destination : Destination) (key : String)
    (compareKey : Option String) (onlyMembers : Bool) (world : World)
    (empty : (source.roster key world.files).1 = []) :
    ∃ outcome after,
      Run.exec (asImageWith save source config destination key compareKey onlyMembers) world
        = (.ok outcome, after) ∧
      match destination.choice key .png world.input with
      | none => outcome = .cancelled ∧ Wrote world after []
      | some chosen =>
        if onlyMembers then
          outcome ≠ .written [] ∧
            Exported save config (comparedRoster source key compareKey world) [[]] chosen world
              after outcome
        else outcome = .written [] ∧ Wrote world after [] := by
  obtain ⟨outcome, after, done, ended⟩ := exec_asImageWith_ends saves source config destination key
    compareKey onlyMembers world (not_faulty_of_empty source _ empty)
  have blocks : exportedBlocks source key onlyMembers world =
      if onlyMembers then [[]] else [] := by
    rw [exportedBlocks, empty, Block.plan_nil]
  rw [blocks] at ended
  refine ⟨outcome, after, done, ?_⟩
  cases choice : destination.choice key .png world.input with
  | none =>
    rw [choice] at ended
    exact ended
  | some chosen =>
    rw [choice] at ended
    cases onlyMembers with
    | false =>
      -- There are no paths, so no picture is written and none is refused.
      have ended : Exported save config (comparedRoster source key compareKey world) [] chosen
        world after outcome := ended
      cases ended with
      | written drawn wrote =>
        rw [blockPaths, List.length_nil, List.range_zero, List.map_nil, List.zip_nil_right] at wrote
        exact ⟨rfl, wrote⟩
      | failed _ fewer => cases fewer
    | true =>
      refine ⟨?_, ended⟩
      rintro rfl
      obtain ⟨_, _, _, whole⟩ := ended.paths
      exact absurd (whole [] rfl).1 (by simp [blockPaths])

/-- The roster of an unknown key is empty. -/
theorem asImageWith_of_unknown_key :
    ∃ outcome after,
      Run.exec (asImage (.ofRosters []) {} (.fixed (some ⟨['o']⟩)) "a" (some "b") false) {}
        = (.ok outcome, after) ∧ outcome = .written [] ∧ Wrote {} after [] :=
  asImageWith_of_empty_roster savesPictures_savePicture (.ofRosters []) {} (.fixed (some ⟨['o']⟩))
    "a" (some "b") false {} rfl

/-- Exporting the members of a roster that does not exist makes a file. -/
theorem empty_roster_can_be_exported :
    ∃ picture after,
      Run.exec (asImage (.ofRosters []) {} (.fixed (some (.ofString "o.png"))) "a" none true) {}
        = (.ok (.written [.ofString "o.png"]), after) ∧
      after.files.find (.ofString "o.png") = .ok (.file (.picture picture)) := by
  obtain ⟨pictures, after, done, drawn, wrote⟩ : ∃ (pictures : List Picture) (after : World),
      Run.exec (asImage (.ofRosters []) {} (.fixed (some (.ofString "o.png"))) "a" none true) {}
        = (.ok (.written [.ofString "o.png"]), after) ∧
      [[]].map (Block.render {} none) = pictures.map .ok ∧
      Wrote {} after (pictures.zip [.ofString "o.png"]) := by
    refine exec_asImage_written (not_faulty_of_empty (.ofRosters []) none rfl) rfl rfl ?_
    exact List.forall_mem_singleton.2 ⟨by decide, _, rfl⟩
  obtain ⟨picture, _, rfl, _, none⟩ := List.map_eq_cons_iff.1 drawn.symm
  exact ⟨picture, after, done, wrote.written (picture, .ofString "o.png") List.mem_cons_self⟩

end Export

end GuildRoster
