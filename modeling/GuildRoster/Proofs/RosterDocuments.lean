import GuildRoster.Proofs.Json.WriterForms
import GuildRoster.Proofs.RecordReading
import GuildRoster.Store

/-!
# Rosters in documents

The document of a roster reads as that roster: every part of a player is written as a form of its
datum, and its datum reads as the part.
-/

set_option autoImplicit false

namespace GuildRoster

open Datum Json RecordFormat

/-! ## Writing -/

private theorem writesForm_signed64 (number : Int64) : WritesForm (.ofSigned64 number) := by
  obtain ⟨least, most⟩ := toInt_inRange number
  exact writesForm_integer least (by omega)

private theorem writesForm_byte (number : UInt8) : WritesForm (.ofByte number) := by
  have most := number.toNat_lt
  exact writesForm_integer (by omega) (by omega)

private theorem writesForm_optional {α : Type} {datum : α → Datum}
    (written : ∀ value, WritesForm (datum value)) (content : Option α) :
    WritesForm (.ofOptional datum content) := by
  cases content with
  | none => exact writesForm_null
  | some value => exact written value

theorem Membership.writesForm (figures : Membership) : WritesForm figures.datum :=
  writesForm_members (by simp [writesForm_signed64, writesForm_byte])

theorem PotionSlot.writesForm (slot : PotionSlot) : WritesForm slot.datum :=
  writesForm_members (by simp [writesForm_signed64, writesForm_byte])

theorem Rankings.writesForm (rankings : Rankings) : WritesForm rankings.datum :=
  writesForm_members (by simp [writesForm_signed64])

theorem Fortress.writesForm (fortress : Fortress) : WritesForm fortress.datum :=
  writesForm_members (by simp [writesForm_signed64])

theorem Player.writesForm (player : Player) : WritesForm player.datum := by
  have potions : WritesForm (.list (player.potions.toList.map PotionSlot.datum) none) :=
    writesForm_list (by simp [PotionSlot.writesForm])
  exact writesForm_members (by
    simp [writesForm_signed64, writesForm_byte, writesForm_text, potions,
      writesForm_optional writesForm_text, writesForm_optional Membership.writesForm,
      Rankings.writesForm, Fortress.writesForm])

/-! ## Reading -/

theorem Membership.read_datum (surplus : Surplus) (figures : Membership) :
    Membership.format.read surplus figures.datum = .ok figures := by
  have role : GuildRole.read (.ofByte figures.role.index) = .ok figures.role := by
    simp [GuildRole.read, readByte_ofByte, bind, Except.bind, pure, Except.pure]
  exact read_of_fills (by decide)
    (.mandatory role
    (.optional (readSigned64_ofSigned64 _)
    (.optional (readSigned64_ofSigned64 _)
    (.optional (readSigned64_ofSigned64 _)
    (.optional (readSigned64_ofSigned64 _) .nil))))) surplus

theorem PotionSlot.read_datum (surplus : Surplus) (slot : PotionSlot) :
    PotionSlot.format.read surplus slot.datum = .ok slot :=
  read_of_fills (by decide)
    (.mandatory (readByte_ofByte _) (.mandatory (readSigned64_ofSigned64 _) .nil)) surplus

theorem PotionBelt.read_datum (surplus : Surplus) (belt : PotionBelt) :
    PotionBelt.read surplus (.list (belt.toList.map PotionSlot.datum) none) = .ok belt := by
  simp [PotionBelt.read, PotionBelt.toList, readTriple, PotionSlot.read_datum, Surplus.check, bind,
    Except.bind, pure, Except.pure]

theorem Rankings.read_datum (surplus : Surplus) (rankings : Rankings) :
    Rankings.format.read surplus rankings.datum = .ok rankings :=
  read_of_fills (by decide)
    (.optional (readSigned64_ofSigned64 _)
    (.optional (readSigned64_ofSigned64 _)
    (.optional (readSigned64_ofSigned64 _)
    (.optional (readSigned64_ofSigned64 _) .nil)))) surplus

theorem Fortress.read_datum (surplus : Surplus) (fortress : Fortress) :
    Fortress.format.read surplus fortress.datum = .ok fortress :=
  read_of_fills (by decide)
    (.optional (readSigned64_ofSigned64 _)
    (.optional (readSigned64_ofSigned64 _)
    (.optional (readSigned64_ofSigned64 _)
    (.optional (readSigned64_ofSigned64 _)
    (.optional (readSigned64_ofSigned64 _) .nil))))) surplus

theorem Player.read_datum (surplus : Surplus) (player : Player) :
    Player.read surplus player.datum = .ok player := by
  have name : readText .string (.text player.name) = .ok player.name := rfl
  have guild : readOptional (readText .string) (.ofOptional .text player.guild)
      = .ok player.guild :=
    readOptional_ofOptional fun value => ⟨Datum.noConfusion, rfl⟩
  have membership : readOptional (Membership.format.read surplus)
      (.ofOptional Membership.datum player.membership) = .ok player.membership :=
    readOptional_ofOptional fun figures => ⟨Datum.noConfusion, figures.read_datum surplus⟩
  have distinct : ((Player.format surplus).fields.map (·.name)).Nodup := by
    cases surplus <;> decide
  exact read_of_fills distinct
    (.optional name (.optional guild (.optional membership
    (.optional (readSigned64_ofSigned64 _) (.optional (readSigned64_ofSigned64 _)
    (.optional (readSigned64_ofSigned64 _) (.optional (readSigned64_ofSigned64 _)
    (.optional (readSigned64_ofSigned64 _) (.optional (readSigned64_ofSigned64 _)
    (.optional (readByte_ofByte _) (.optional (readByte_ofByte _) (.optional (readByte_ofByte _)
    (.optional (readSigned64_ofSigned64 _) (.optional (readSigned64_ofSigned64 _)
    (.optional (readSigned64_ofSigned64 _) (.optional (readSigned64_ofSigned64 _)
    (.optional (readSigned64_ofSigned64 _) (.optional (readSigned64_ofSigned64 _)
    (.optional (readSigned64_ofSigned64 _) (.optional (player.potions.read_datum surplus)
    (.optional (player.rankings.read_datum surplus)
    (.optional (player.fortress.read_datum surplus) .nil)))))))))))))))))))))) surplus

/-! ## Whole documents -/

theorem Roster.read_write (roster : Roster) : Roster.read roster.write = .ok roster := by
  have written : WritesForm (.list (roster.map Player.datum) none) :=
    writesForm_list (by simp [Player.writesForm])
  have items := readItems_map (Player.read_datum .trailing) roster
  simp only [Roster.read, Roster.write, written.read_write, readList, items]
  rfl

end GuildRoster
