import GuildRoster.Proofs.CompareRosters
import GuildRoster.Proofs.Faults
import GuildRoster.Sample

/-!
# Sample rosters

No two players of a sample roster have the same name, so each player of the same roster some time
later is compared with himself, and none of his figures is lower than it was. The rosters that can
be made are those whose seeds leave room for every figure.
-/

set_option autoImplicit false

namespace GuildRoster

/-! ## Exact results -/

/-- An exact result is the one number with that value. -/
theorem exactly_eq_ok_iff {operation : ArithmeticOperation} {value : Int} {number : Int64} :
    exactly operation value = .ok number ↔ number.toInt = value := by
  unfold exactly
  constructor
  · intro done
    split at done
    next inRange =>
      cases done
      exact Int64.toInt_ofInt_of_le (by omega) (by omega)
    next => cases done
  · intro same
    have inRange := toInt_inRange number
    rw [same] at inRange
    rw [if_pos inRange, ← same, Int64.ofInt_toInt]

theorem exactly_succeeds {operation : ArithmeticOperation} {value : Int}
    (least : -9223372036854775808 ≤ value) (most : value ≤ 9223372036854775807) :
    Succeeds (exactly operation value) :=
  ⟨_, if_pos ⟨least, most⟩⟩

namespace Sample

/-! ## Names -/

theorem letters_of_mem_names {name : String} (member : name ∈ names) :
    ∀ character ∈ name.toList, character.isDigit = false := by
  have plain : (names.all fun name => name.toList.all (!·.isDigit)) = true := by decide
  intro character present
  simpa using List.all_eq_true.1 (List.all_eq_true.1 plain name member) character present

/-- The number of the round in which a position comes, as digits. The first round has none. -/
def roundDigits (position : Nat) : List Char :=
  if position < 12 then [] else Nat.toDigits 10 (position / 12)

theorem toList_nameAt (position : Nat) : ∃ name, names[position % 12]? = some name ∧
    (nameAt position).toList = name.toList ++ roundDigits position := by
  have inside : position % 12 < names.length := Nat.mod_lt position (by decide)
  have twelve : names.length = 12 := rfl
  refine ⟨names[position % 12], List.getElem?_eq_getElem inside, ?_⟩
  simp only [nameAt, twelve, List.getElem?_eq_getElem inside, Option.getD_some, roundDigits]
  split
  next => rw [List.append_nil]
  next =>
    rw [String.toList_append, Nat.toString_eq_ofList_toDigits, String.toList_ofList]

theorem isDigit_of_mem_roundDigits (position : Nat) :
    ∀ character ∈ roundDigits position, character.isDigit = true := by
  intro character member
  unfold roundDigits at member
  split at member
  next => cases member
  next => exact Nat.isDigit_of_mem_toDigits (by decide) (by decide) member

theorem round_eq_of_roundDigits {position other : Nat}
    (same : roundDigits position = roundDigits other) : position / 12 = other / 12 := by
  have value : ∀ position, Nat.ofDigitChars 10 (roundDigits position) 0 = position / 12 := by
    intro position
    unfold roundDigits
    split
    next first => rw [Nat.div_eq_of_lt first]; rfl
    next => exact Nat.ofDigitChars_ten_toDigits
  rw [← value position, same, value other]

private theorem letters_and_digits {letters digits : List Char}
    (plain : ∀ character ∈ letters, character.isDigit = false)
    (all : ∀ character ∈ digits, character.isDigit = true) :
    (letters ++ digits).filter (!·.isDigit) = letters ∧
      (letters ++ digits).filter (·.isDigit) = digits := by
  have first : letters.filter (·.isDigit) = [] :=
    List.filter_eq_nil_iff.2 fun character member => by simp [plain character member]
  have second : digits.filter (!·.isDigit) = [] :=
    List.filter_eq_nil_iff.2 fun character member => by simp [all character member]
  have others : letters.filter (!·.isDigit) = letters :=
    List.filter_eq_self.2 fun character member => by simp [plain character member]
  rw [List.filter_append, List.filter_append, first, second, others, List.filter_eq_self.2 all]
  exact ⟨List.append_nil letters, rfl⟩

/-- The letters of a name tell the remainder of its position, and the digits the quotient. -/
theorem nameAt_injective : Function.Injective nameAt := by
  intro position other same
  obtain ⟨name, found, shape⟩ := toList_nameAt position
  obtain ⟨again, alsoFound, alsoShape⟩ := toList_nameAt other
  have parts := letters_and_digits (letters_of_mem_names (List.mem_of_getElem? found))
    (isDigit_of_mem_roundDigits position)
  have alsoParts := letters_and_digits (letters_of_mem_names (List.mem_of_getElem? alsoFound))
    (isDigit_of_mem_roundDigits other)
  rw [← shape, same] at parts
  rw [← alsoShape] at alsoParts
  have equal : name = again := String.toList_inj.1 (parts.1.symm.trans alsoParts.1)
  have remainders : position % 12 = other % 12 := by
    have distinct : names.Nodup := by decide
    have inside : position % 12 < names.length := Nat.mod_lt position (by decide)
    exact (List.getElem?_inj inside distinct).1 (found.trans (equal ▸ alsoFound.symm))
  have quotients := round_eq_of_roundDigits (parts.2.symm.trans alsoParts.2)
  omega

/-! ## Figures of one player -/

/-- The greatest seed that leaves room for the experience, which grows faster with the seed than all
other figures. -/
def greatestSeed : Int := 747134227367661

variable {seed base factor result : Int64} {modulus : Int}

theorem toInt_remainder (natural : 0 ≤ seed.toInt) (positive : 0 < modulus)
    (short : modulus ≤ 9223372036854775807) :
    (remainder seed modulus).toInt = seed.toInt % modulus := by
  have least := Int.emod_nonneg seed.toInt (Int.ne_of_gt positive)
  have most := Int.emod_lt_of_pos seed.toInt positive
  rw [remainder, Int.tmod_eq_emod_of_nonneg natural]
  exact Int64.toInt_ofInt_of_le (by omega) (by omega)

theorem toInt_wrapped (done : wrapped base seed factor modulus = .ok result)
    (natural : 0 ≤ seed.toInt * factor.toInt) (positive : 0 < modulus)
    (short : modulus ≤ 9223372036854775807) :
    result.toInt = base.toInt + seed.toInt * factor.toInt % modulus := by
  obtain ⟨product, multiplied, added⟩ := except_bind_eq_ok_iff.1 done
  rw [exactProduct, exactly_eq_ok_iff] at multiplied
  rw [← multiplied] at natural ⊢
  rw [exactSum, exactly_eq_ok_iff, toInt_remainder natural positive short] at added
  exact added

theorem toInt_grown (done : grown base seed factor = .ok result) :
    result.toInt = base.toInt + seed.toInt * factor.toInt := by
  obtain ⟨product, multiplied, added⟩ := except_bind_eq_ok_iff.1 done
  rw [exactProduct, exactly_eq_ok_iff] at multiplied
  rw [exactSum, exactly_eq_ok_iff, multiplied] at added
  exact added

/-- A number that samples start from, or a remainder. -/
def Small (number : Int64) : Prop := 0 ≤ number.toInt ∧ number.toInt ≤ 1000000

/-- A number that samples multiply a seed with. -/
def IsFactor (number : Int64) : Prop := 0 ≤ number.toInt ∧ number.toInt ≤ 12345

instance (number : Int64) : Decidable (Small number) := inferInstanceAs (Decidable (_ ∧ _))

instance (number : Int64) : Decidable (IsFactor number) := inferInstanceAs (Decidable (_ ∧ _))

theorem remainder_small (natural : 0 ≤ seed.toInt) (positive : 0 < modulus)
    (short : modulus ≤ 1000000) : Small (remainder seed modulus) := by
  have least := Int.emod_nonneg seed.toInt (Int.ne_of_gt positive)
  have most := Int.emod_lt_of_pos seed.toInt positive
  rw [Small, toInt_remainder natural positive (by omega)]
  omega

theorem exactSum_succeeds (most : base.toInt ≤ 1000000) (small : Small factor) :
    Succeeds (exactSum base factor) := by
  obtain ⟨natural, few⟩ := small
  have least := (toInt_inRange base).1
  exact exactly_succeeds (by omega) (by omega)

/-- A seed that is neither negative nor too great. -/
structure Seeds (seed : Int64) : Prop where
  natural : 0 ≤ seed.toInt
  most : seed.toInt ≤ greatestSeed

namespace Seeds

theorem product_succeeds (seeds : Seeds seed) (factors : IsFactor factor) :
    ∃ product, exactProduct seed factor = .ok product ∧ 0 ≤ product.toInt ∧
      product.toInt ≤ greatestSeed * 12345 := by
  obtain ⟨natural, small⟩ := factors
  have least := Int.mul_nonneg seeds.natural natural
  have most : seed.toInt * factor.toInt ≤ greatestSeed * 12345 :=
    Int.mul_le_mul seeds.most small natural (by decide)
  have inRange : seed.toInt * factor.toInt ≤ 9223372036854775807 :=
    Int.le_trans most (by decide)
  obtain ⟨product, multiplied⟩ : Succeeds (exactProduct seed factor) :=
    exactly_succeeds (by omega) inRange
  have value := exactly_eq_ok_iff.1 multiplied
  exact ⟨product, multiplied, by omega, by omega⟩

theorem wrapped_succeeds (seeds : Seeds seed) (small : Small base) (factors : IsFactor factor)
    (positive : 0 < modulus) (short : modulus ≤ 1000000) :
    Succeeds (wrapped base seed factor modulus) := by
  obtain ⟨product, multiplied, natural, _⟩ := seeds.product_succeeds factors
  exact .bind_of_eq multiplied (exactSum_succeeds small.2 (remainder_small natural positive short))

theorem grown_succeeds (seeds : Seeds seed) (small : Small base) (factors : IsFactor factor) :
    Succeeds (grown base seed factor) := by
  obtain ⟨least, most⟩ := small
  obtain ⟨product, multiplied, natural, few⟩ := seeds.product_succeeds factors
  have room : greatestSeed * 12345 + 1000000 ≤ 9223372036854775807 := by decide
  exact .bind_of_eq multiplied (exactly_succeeds (by omega) (by omega))

theorem shrunk_succeeds (seeds : Seeds seed) (small : Small base) (factors : IsFactor factor) :
    Succeeds (shrunk base seed factor) := by
  obtain ⟨least, most⟩ := small
  obtain ⟨product, multiplied, natural, few⟩ := seeds.product_succeeds factors
  have room : greatestSeed * 12345 ≤ 9223372036854775807 := by decide
  exact .bind_of_eq multiplied (exactly_succeeds (by omega) (by omega))

theorem potions_succeeds (seeds : Seeds seed) : Succeeds (potions seed) := by
  have four : (remainder seed 4).toInt = seed.toInt % 4 :=
    toInt_remainder seeds.natural (by decide) (by decide)
  have cases : seed.toInt % 4 = 0 ∨ seed.toInt % 4 = 1 ∨ seed.toInt % 4 = 2 ∨
      seed.toInt % 4 = 3 := by omega
  rw [potions, four]
  rcases cases with zero | one | two | three
  · rw [zero]; exact ⟨_, rfl⟩
  · rw [one]; exact ⟨_, rfl⟩
  · rw [two]; exact ⟨_, rfl⟩
  · rw [three]; exact ⟨_, rfl⟩

theorem remainder_small (seeds : Seeds seed) (positive : 0 < modulus)
    (short : modulus ≤ 1000000) : Small (remainder seed modulus) :=
  Sample.remainder_small seeds.natural positive short

theorem membership_succeeds (seeds : Seeds seed) : Succeeds (membership seed) := by
  refine (exactSum_succeeds (by decide) (seeds.remainder_small (by decide) (by decide))).bind
    fun treasure _ => ?_
  refine (exactSum_succeeds (by decide) (seeds.remainder_small (by decide) (by decide))).bind
    fun instructor _ => ?_
  refine (seeds.wrapped_succeeds (by decide) (by decide) (by decide) (by decide)).bind
    fun pet _ => ?_
  exact ⟨_, rfl⟩

/-- Every figure of a sample player has room for what its seed makes of it. -/
theorem player_succeeds (seeds : Seeds seed) (name : String) (member : Bool) :
    Succeeds (player name seed member) := by
  have wraps : ∀ base factor : Int64, ∀ modulus : Int,
      Small base ∧ IsFactor factor ∧ 0 < modulus ∧ modulus ≤ 1000000 →
      Succeeds (wrapped base seed factor modulus) :=
    fun _ _ _ fits => seeds.wrapped_succeeds fits.1 fits.2.1 fits.2.2.1 fits.2.2.2
  have grows : ∀ base factor : Int64, Small base ∧ IsFactor factor →
      Succeeds (grown base seed factor) := fun _ _ fits => seeds.grown_succeeds fits.1 fits.2
  have shrinks : ∀ base factor : Int64, Small base ∧ IsFactor factor →
      Succeeds (shrunk base seed factor) := fun _ _ fits => seeds.shrunk_succeeds fits.1 fits.2
  have counts : ∀ modulus : Int, 0 < modulus ∧ modulus ≤ 1000000 →
      Succeeds (exactSum (remainder seed modulus) 1) := fun _ fits =>
    exactSum_succeeds (seeds.remainder_small fits.1 fits.2).2 (by decide)
  refine (wraps 100 7 300 (by decide)).bind fun level _ => ?_
  extract_lets rest
  have continues : ∀ guildFigures, Succeeds (rest guildFigures) := by
    intro guildFigures
    refine (grows 1000000 12345 (by decide)).bind fun xp _ => ?_
    refine (wraps 0 97 2160 (by decide)).bind fun book _ => ?_
    refine (wraps 0 3 71 (by decide)).bind fun achievements _ => ?_
    refine (counts 8 (by decide)).bind fun characterClass _ => ?_
    refine (counts 2 (by decide)).bind fun sex _ => ?_
    refine (grows 1000 41 (by decide)).bind fun strength _ => ?_
    refine (grows 800 37 (by decide)).bind fun dexterity _ => ?_
    refine (grows 600 29 (by decide)).bind fun intelligence _ => ?_
    refine (grows 1200 53 (by decide)).bind fun constitution _ => ?_
    refine (grows 500 17 (by decide)).bind fun luck _ => ?_
    refine (grows 3000 11 (by decide)).bind fun armor _ => ?_
    refine (wraps 1500 23 900 (by decide)).bind fun gearScore _ => ?_
    refine seeds.potions_succeeds.bind fun belt _ => ?_
    refine (grows 1000 31 (by decide)).bind fun playerRank _ => ?_
    refine (shrinks 9000 5 (by decide)).bind fun playerHonor _ => ?_
    refine (grows 2000 19 (by decide)).bind fun fortressRank _ => ?_
    refine (shrinks 4000 3 (by decide)).bind fun fortressHonor _ => ?_
    exact ⟨_, rfl⟩
  cases member with
  | false => exact continues none
  | true =>
    obtain ⟨figures, done⟩ := seeds.membership_succeeds
    rw [if_pos rfl, done]
    exact continues (some figures)

end Seeds

/-! ## Players as they are made -/

/-- What a sample player is, as far as it matters later: his name, whether he is a member, and
figures that leave room for progress. -/
structure Sampled (name : String) (seed : Int64) (member : Bool) (player : Player) : Prop where
  name : player.name = name
  isMember : player.isMember = member
  experience : player.xp.toInt = 1000000 + seed.toInt * 12345
  level : player.level.toInt < 400
  gearScore : player.gearScore.toInt < 2400
  book : player.book.toInt < 2160
  figures : ∀ figures, player.membership = some figures →
    figures.pet.toInt < 420 ∧ figures.knights.toInt < 21

theorem wrapped_lt (done : wrapped base seed factor modulus = .ok result)
    (natural : 0 ≤ seed.toInt * factor.toInt) (positive : 0 < modulus)
    (short : modulus ≤ 9223372036854775807) : result.toInt < base.toInt + modulus := by
  have most := Int.emod_lt_of_pos (seed.toInt * factor.toInt) positive
  rw [toInt_wrapped done natural positive short]
  omega

theorem membership_small {figures : Membership} (natural : 0 ≤ seed.toInt)
    (done : membership seed = .ok figures) :
    figures.pet.toInt < 420 ∧ figures.knights.toInt < 21 := by
  simp only [membership, except_bind_eq_ok_iff] at done
  obtain ⟨_, _, _, _, pet, wrapping, made⟩ := done
  cases made
  refine ⟨wrapped_lt wrapping (Int.mul_nonneg natural (by decide)) (by decide) (by decide), ?_⟩
  dsimp only
  rw [toInt_remainder natural (by decide) (by decide)]
  omega

theorem sampled_of_player {name : String} {member : Bool} {made : Player}
    (natural : 0 ≤ seed.toInt) (done : player name seed member = .ok made) :
    Sampled name seed member made := by
  have product : ∀ factor : Int64, 0 ≤ factor.toInt → 0 ≤ seed.toInt * factor.toInt :=
    fun _ => Int.mul_nonneg natural
  unfold player at done
  obtain ⟨level, levels, done⟩ := except_bind_eq_ok_iff.1 done
  extract_lets rest at done
  have continues : ∀ figures, rest figures = .ok made →
      (∀ given, figures = some given → given.pet.toInt < 420 ∧ given.knights.toInt < 21) →
      figures.isSome = member → Sampled name seed member made := by
    intro figures finished few isMember
    simp only [rest, except_bind_eq_ok_iff] at finished
    obtain ⟨xp, growing, book, reading, _, _, _, _, _, _, _, _, _, _, _, _, _, _, _, _, _, _,
      gearScore, wearing, _, _, _, _, _, _, _, _, _, _, built⟩ := finished
    cases built
    exact {
      name := rfl
      isMember := isMember
      experience := toInt_grown growing
      level := wrapped_lt levels (product 7 (by decide)) (by decide) (by decide)
      gearScore := wrapped_lt wearing (product 23 (by decide)) (by decide) (by decide)
      book := wrapped_lt reading (product 97 (by decide)) (by decide) (by decide)
      figures := few }
  cases member with
  | false => exact continues none done (by simp) rfl
  | true =>
    rw [if_pos rfl] at done
    obtain ⟨figures, joined, finished⟩ := except_bind_eq_ok_iff.1 done
    cases given : membership seed with
    | error fault =>
      rw [given] at joined
      cases joined
    | ok guildFigures =>
      rw [given] at joined
      cases joined
      refine continues _ finished ?_ rfl
      intro same equal
      cases equal
      exact membership_small natural given

/-! ## Whole rosters -/

variable {count members : Nat} {made later : Roster}

theorem toInt_seed {position : Nat} (small : (position : Int) < 9223372036854775807) :
    (Int64.ofNat (position + 1)).toInt = position + 1 := by
  rw [Int64.toInt_ofNat_of_lt (by omega)]
  rfl

/-- The players of a roster are made in turn. -/
theorem sampled_of_roster (done : roster count members = .ok made) :
    made.length = count ∧ ∀ (index : Nat) (player : Player), made[index]? = some player →
      (index : Int) < 9223372036854775807 →
      Sampled (nameAt index) (Int64.ofNat (index + 1)) (index < members) player := by
  obtain ⟨length, each⟩ := mapM_eq_ok done
  rw [List.length_range] at length
  refine ⟨length, fun index player found small => ?_⟩
  have inside : index < count := by
    rw [← length]
    exact (List.getElem?_eq_some_iff.1 found).1
  have position : (List.range count)[index]? = some index := List.getElem?_range inside
  apply sampled_of_player
  · rw [toInt_seed small]
    omega
  · exact each index index player position found

/-- A roster can be made just when the seed of its last player is not too great. -/
theorem roster_succeeds_iff : Succeeds (roster count members) ↔ (count : Int) ≤ greatestSeed := by
  constructor
  · intro succeeds
    obtain ⟨made, done⟩ := succeeds
    obtain ⟨length, each⟩ := sampled_of_roster done
    by_contra great
    -- The seed of the player behind the greatest seed leaves no room for his experience.
    have positive : 0 ≤ greatestSeed := by decide
    have inside : greatestSeed.toNat < made.length := by omega
    have sampled := each greatestSeed.toNat _ (List.getElem?_eq_getElem inside) (by decide)
    have experience := sampled.experience
    have inRange := toInt_inRange made[greatestSeed.toNat].xp
    have seed : (Int64.ofNat (greatestSeed.toNat + 1)).toInt = 747134227367662 := by decide
    omega
  · intro small
    apply Succeeds.mapM
    intro position member
    have inside := List.mem_range.1 member
    have room : greatestSeed < 9223372036854775807 := by decide
    have seed : (Int64.ofNat (position + 1)).toInt = position + 1 := toInt_seed (by omega)
    exact Seeds.player_succeeds ⟨by omega, by omega⟩ _ _

theorem names_distinct (done : roster count members = .ok made) : (made.map (·.name)).Nodup := by
  have small : (count : Int) ≤ greatestSeed := roster_succeeds_iff.1 ⟨made, done⟩
  have room : greatestSeed < 9223372036854775807 := by decide
  obtain ⟨length, each⟩ := sampled_of_roster done
  have inTurn : made.map (·.name) = (List.range count).map nameAt := by
    apply List.ext_getElem
    · simp [length]
    · intro index inside _
      rw [List.length_map, length] at inside
      have found := List.getElem?_eq_getElem (length ▸ inside : index < made.length)
      simpa using (each index _ found (by omega)).name
  rw [inTurn]
  exact List.nodup_range.map nameAt_injective

/-! ## Progress -/

/-- A player some time later: the same player, with no figure lower than it was, and no more items
in his album than there are. -/
structure Progressed (before after : Player) : Prop where
  name : after.name = before.name
  guild : after.guild = before.guild
  role : after.role? = before.role?
  level : before.level ≤ after.level
  gearScore : before.gearScore ≤ after.gearScore
  book : before.book ≤ after.book
  album : after.book ≤ albumTotal
  figures : ∀ figures, before.membership = some figures →
    ∃ grown, after.membership = some grown ∧ figures.pet ≤ grown.pet ∧
      figures.knights ≤ grown.knights

/-- A figure that grows at the positions of an interval. -/
def raised (position interval : Nat) (figure amount : Int64) : Except Fault Int64 :=
  if position % interval = 0 then exactSum figure amount else pure figure

def progressedMembership (position : Nat) : Option Membership → Except Fault (Option Membership)
  | none => pure none
  | some figures => do
    let pet ← exactSum figures.pet 3
    let knights ← raised position 3 figures.knights 1
    pure (some { figures with pet, knights })

theorem progressedPlayer_eq (position : Nat) (before : Player) :
    progressedPlayer position before = (do
      let level ← raised position 2 before.level 1
      let gearScore ← raised position 2 before.gearScore 12
      let book ← exactSum before.book 9
      let membership ← progressedMembership position before.membership
      pure { before with
        level, gearScore, membership
        book := if albumTotal < book then albumTotal else book }) := by
  by_cases even : position % 2 = 0 <;> by_cases third : position % 3 = 0 <;>
    cases figures : before.membership <;>
    simp [progressedPlayer, raised, progressedMembership, even, third, figures]

section Growth

variable {position interval : Nat} {figure amount grown : Int64}

theorem le_of_exactSum (natural : 0 ≤ amount.toInt) (done : exactSum figure amount = .ok grown) :
    figure ≤ grown := by
  rw [exactSum, exactly_eq_ok_iff] at done
  rw [Int64.le_iff_toInt_le, done]
  omega

theorem le_of_raised (natural : 0 ≤ amount.toInt)
    (done : raised position interval figure amount = .ok grown) : figure ≤ grown := by
  unfold raised at done
  split at done
  next => exact le_of_exactSum natural done
  next =>
    cases done
    exact Int64.le_refl figure

theorem raised_succeeds (most : figure.toInt ≤ 1000000) (small : Small amount) :
    Succeeds (raised position interval figure amount) := by
  unfold raised
  split
  next => exact exactSum_succeeds most small
  next => exact ⟨figure, rfl⟩

end Growth

variable {name : String} {member : Bool} {position : Nat} {before after : Player}

theorem Sampled.progressedPlayer_succeeds (sampled : Sampled name seed member before) :
    Succeeds (progressedPlayer position before) := by
  have level := sampled.level
  have gearScore := sampled.gearScore
  have book := sampled.book
  have figures : Succeeds (progressedMembership position before.membership) := by
    cases given : before.membership with
    | none => exact ⟨none, rfl⟩
    | some figures =>
      obtain ⟨pet, knights⟩ := sampled.figures figures given
      refine (exactSum_succeeds (by omega) (by decide)).bind fun grown _ => ?_
      refine (raised_succeeds (by omega) (by decide)).bind fun grown _ => ?_
      exact ⟨_, rfl⟩
  rw [progressedPlayer_eq]
  refine (raised_succeeds (by omega) (by decide)).bind fun level _ => ?_
  refine (raised_succeeds (by omega) (by decide)).bind fun gearScore _ => ?_
  refine (exactSum_succeeds (by omega) (by decide)).bind fun book _ => ?_
  exact figures.bind fun membership _ => ⟨_, rfl⟩

theorem progressed_membership {figures : Membership} {grown : Option Membership}
    (done : progressedMembership position (some figures) = .ok grown) :
    ∃ later, grown = some later ∧ later.role = figures.role ∧ figures.pet ≤ later.pet ∧
      figures.knights ≤ later.knights := by
  simp only [progressedMembership, except_bind_eq_ok_iff] at done
  obtain ⟨pet, petGrows, knights, knightsGrow, built⟩ := done
  cases built
  exact ⟨_, rfl, rfl, le_of_exactSum (by decide) petGrows, le_of_raised (by decide) knightsGrow⟩

theorem progressed_of_player (full : before.book ≤ albumTotal)
    (done : progressedPlayer position before = .ok after) : Progressed before after := by
  simp only [progressedPlayer_eq, except_bind_eq_ok_iff] at done
  obtain ⟨level, levelGrows, gearScore, gearGrows, book, bookGrows, grown, joins, built⟩ := done
  have album : before.book ≤ book := le_of_exactSum (by decide) bookGrows
  have figures : ∀ figures, before.membership = some figures → ∃ later, grown = some later ∧
      later.role = figures.role ∧ figures.pet ≤ later.pet ∧ figures.knights ≤ later.knights := by
    intro figures given
    rw [given] at joins
    exact progressed_membership joins
  have role : grown.map (·.role) = before.membership.map (·.role) := by
    cases given : before.membership with
    | none =>
      rw [given] at joins
      cases joins
      rfl
    | some present =>
      obtain ⟨later, joined, same, _⟩ := figures present given
      rw [joined]
      exact congrArg some same
  cases built
  exact {
    name := rfl
    guild := rfl
    role := role
    level := le_of_raised (by decide) levelGrows
    gearScore := le_of_raised (by decide) gearGrows
    book := by
      dsimp only
      split
      next => exact full
      next => exact album
    album := by
      dsimp only
      split
      next => exact Int64.le_refl albumTotal
      next fits => exact Int64.not_lt.1 fits
    figures := fun given member =>
      let ⟨later, joined, _, grows⟩ := figures given member
      ⟨later, joined, grows⟩ }

/-- The players progress in turn, each at his own position. -/
theorem progressed_of_roster {before later : Roster}
    (done : progressedRoster before = .ok later) : later.length = before.length ∧
      ∀ (index : Nat) (player after : Player), before[index]? = some player →
        later[index]? = some after → progressedPlayer index player = .ok after := by
  obtain ⟨length, each⟩ := mapM_eq_ok done
  rw [List.length_zipIdx] at length
  refine ⟨length, fun index player after there here => each index (player, index) after ?_ here⟩
  rw [List.getElem?_zipIdx, there]
  simp

/-- A sample roster can be made just when its last seed leaves room for the experience. Then it has
so many players, no two with the same name and the members in front, and it can progress: each
player is found by his name in the roster as it was, and none of his figures is lower. -/
theorem roster_progresses (count members : Nat) :
    (Succeeds (roster count members) ↔ (count : Int) ≤ greatestSeed) ∧
    ∀ made, roster count members = .ok made →
      made.length = count ∧ (made.map (·.name)).Nodup ∧
      (∀ (index : Nat) (player : Player), made[index]? = some player →
        (player.isMember = true ↔ index < min members count)) ∧
      ∃ later, progressedRoster made = .ok later ∧ later.length = count ∧
        ∀ (index : Nat) (before after : Player), made[index]? = some before →
          later[index]? = some after →
          made.findByName? after.name = some before ∧ Progressed before after := by
  refine ⟨roster_succeeds_iff, fun made done => ?_⟩
  have small : (count : Int) ≤ greatestSeed := roster_succeeds_iff.1 ⟨made, done⟩
  have room : greatestSeed < 9223372036854775807 := by decide
  have distinct := names_distinct done
  obtain ⟨length, each⟩ := sampled_of_roster done
  have sampled : ∀ (index : Nat) (player : Player), made[index]? = some player → index < count ∧
      Sampled (nameAt index) (Int64.ofNat (index + 1)) (index < members) player := by
    intro index player found
    have inside := (List.getElem?_eq_some_iff.1 found).1
    rw [length] at inside
    exact ⟨inside, each index player found (by omega)⟩
  have progresses : Succeeds (progressedRoster made) := by
    apply Succeeds.mapM
    intro entry member
    have found := List.mem_zipIdx_iff_getElem?.1 member
    exact (sampled entry.2 entry.1 found).2.progressedPlayer_succeeds
  obtain ⟨later, progressed⟩ := progresses
  obtain ⟨alsoLength, grows⟩ := progressed_of_roster progressed
  refine ⟨length, distinct, ?_, later, progressed, alsoLength.trans length, ?_⟩
  · intro index player found
    obtain ⟨inside, is⟩ := sampled index player found
    rw [is.isMember, decide_eq_true_iff]
    omega
  · intro index before after there here
    have full : before.book ≤ albumTotal := by
      have fewer := (sampled index before there).2.book
      have total : albumTotal.toInt = 2160 := by decide
      rw [Int64.le_iff_toInt_le]
      omega
    have same := progressed_of_player full (grows index before after there here)
    refine ⟨?_, same⟩
    exact (Roster.findByName?_eq_some_iff distinct).2
      ⟨List.mem_of_getElem? there, same.name.symm⟩

/-- In a roster of fourteen the last player has the name of the second one with a number behind it,
and is found all the same. -/
theorem roster_progresses_fourteen : ∃ made later before after,
    roster 14 3 = .ok made ∧ progressedRoster made = .ok later ∧ made[13]? = some before ∧
    later[13]? = some after ∧ made.findByName? after.name = some before ∧
    Progressed before after := by
  obtain ⟨can, holds⟩ := roster_progresses 14 3
  obtain ⟨made, done⟩ := can.2 (by decide)
  obtain ⟨length, _, _, later, progressed, alsoLength, each⟩ := holds made done
  have before := List.getElem?_eq_getElem (length ▸ by decide : 13 < made.length)
  have after := List.getElem?_eq_getElem (alsoLength ▸ by decide : 13 < later.length)
  exact ⟨made, later, _, _, done, progressed, before, after, each 13 _ _ before after⟩

end Sample

end GuildRoster
