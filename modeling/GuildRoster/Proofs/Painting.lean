import GuildRoster.Image.Canvas

/-!
# What drawing leaves at a place

Drawing either leaves the colour of a pixel or replaces it, whatever that colour was. A filled
rectangle replaces exactly the pixels in it, and a text replaces some pixels of its rectangle, all
with its own colour. So what is drawn one after the other is known at a place from what each step
leaves there.
-/

set_option autoImplicit false

namespace GuildRoster

variable {α β : Type} {x y : Nat} {paint later : Option Rgb}

/-- Between two pictures the pixel of a place has kept its colour or got a new one. A place outside
the pictures has no pixel before and after. -/
def Painted (x y : Nat) (paint : Option Rgb) (before after : Picture) : Prop :=
  after.pixel? x y = (before.pixel? x y).map paint.getD

namespace Painted

variable {before between after : Picture}

theorem refl (picture : Picture) : Painted x y none picture picture :=
  Option.map_id'.symm

theorem trans (first : Painted x y paint before between)
    (second : Painted x y later between after) : Painted x y (later.or paint) before after := by
  unfold Painted at first second ⊢
  rw [second, first, Option.map_map]
  cases later with
  | none => rfl
  | some color => rfl

theorem setPixel (picture : Picture) (dotX dotY : Nat) (color : Rgb) :
    Painted x y (if dotX = x ∧ dotY = y then some color else none) picture
      (picture.setPixel dotX dotY color) := by
  unfold Painted
  rw [Picture.pixel?_setPixel]
  by_cases here : dotX = x ∧ dotY = y
  · obtain ⟨rfl, rfl⟩ := here
    by_cases inside : dotX < picture.width ∧ dotY < picture.height
    · simp [inside, Picture.pixel?]
    · simp [inside, Picture.pixel?]
  · have outside : ¬ (dotX = x ∧ dotY = y ∧ dotX < picture.width ∧ dotY < picture.height) :=
      fun all => here ⟨all.1, all.2.1⟩
    rw [if_neg here, if_neg outside]
    exact (refl picture)

theorem kept (painted : Painted x y none before after) :
    after.pixel? x y = before.pixel? x y := Eq.trans painted Option.map_id'

theorem colored {color : Rgb} (painted : Painted x y (some color) before after)
    (inside : x < before.width ∧ y < before.height) : after.pixel? x y = some color := by
  have present : before.pixel? x y = some _ := dif_pos inside
  rw [painted, present]
  rfl

end Painted

/-- A step of drawing leaves the colour of a place or replaces it, on every picture. -/
def Paints (x y : Nat) (paint : Option Rgb) (step : Picture → Except Fault Picture) : Prop :=
  ∀ before after, step before = .ok after → Painted x y paint before after

namespace Paints

variable {step next : Picture → Except Fault Picture}

theorem ok : Paints x y none (fun picture => .ok picture) := by
  intro before after done
  cases done
  exact Painted.refl before

theorem bind (first : Paints x y paint step) (second : Paints x y later next) :
    Paints x y (later.or paint) (fun picture => step picture >>= next) := by
  intro before after done
  obtain ⟨between, drawn, rest⟩ := except_bind_eq_ok_iff.1 done
  exact (first before between drawn).trans (second between after rest)

/-- A step that first computes something without looking at the picture. -/
theorem of_bind {first : Except Fault α} {step : α → Picture → Except Fault Picture}
    {value : α} (found : first = .ok value) (painted : Paints x y paint (step value)) :
    Paints x y paint (fun picture => first >>= fun value => step value picture) := by
  subst found
  exact painted

theorem foldlM_none {items : List β} {step : Picture → β → Except Fault Picture}
    (each : ∀ item ∈ items, Paints x y none (step · item)) :
    Paints x y none (items.foldlM step ·) := by
  induction items with
  | nil => exact ok
  | cons item items ih =>
    have rest := ih fun other member => each other (List.mem_cons_of_mem item member)
    exact (each item List.mem_cons_self).bind rest

/-- Where only one of several steps leaves something, all of them leave that. -/
theorem foldlM_at {items : List β} {item : β} {step : Picture → β → Except Fault Picture}
    (member : item ∈ items) (here : Paints x y paint (step · item))
    (elsewhere : ∀ other ∈ items, other ≠ item → Paints x y none (step · other)) :
    Paints x y paint (items.foldlM step ·) := by
  induction items with
  | nil => cases member
  | cons first items ih =>
    have others : ∀ other ∈ items, other ≠ item → Paints x y none (step · other) :=
      fun other known => elsewhere other (List.mem_cons_of_mem first known)
    by_cases again : item ∈ items
    · have rest := ih again others
      by_cases same : first = item
      · subst same
        have both := here.bind rest
        rwa [Option.or_self] at both
      · have both := (elsewhere first List.mem_cons_self same).bind rest
        rwa [Option.or_none] at both
    · have same : item = first := (List.mem_cons.1 member).resolve_right again
      subst same
      have rest : Paints x y none (items.foldlM step ·) := by
        apply foldlM_none
        intro other known
        apply others other known
        intro equal
        exact again (equal ▸ known)
      have both := here.bind rest
      rwa [Option.none_or] at both

theorem exists_foldlM {items : List β} {step : Picture → β → Except Fault Picture}
    (each : ∀ item ∈ items, ∃ paint, Paints x y paint (step · item)) :
    ∃ paint, Paints x y paint (items.foldlM step ·) := by
  induction items with
  | nil => exact ⟨none, ok⟩
  | cons item items ih =>
    obtain ⟨first, here⟩ := each item List.mem_cons_self
    obtain ⟨others, rest⟩ := ih fun other member => each other (List.mem_cons_of_mem item member)
    exact ⟨others.or first, here.bind rest⟩

end Paints

/-- A step of drawing that replaces at most pixels of a rectangle, and these with one colour. -/
def Inks (rect : Rect) (color : Rgb) (x y : Nat) (step : Picture → Except Fault Picture) : Prop :=
  ∃ paint, Paints x y paint step ∧ (paint = none ∨ paint = some color ∧ rect.holds x y = true)

namespace Inks

variable {rect : Rect} {color : Rgb} {step : Picture → Except Fault Picture}

theorem of_bind {first : Except Fault α} {step : α → Picture → Except Fault Picture}
    (each : ∀ value, first = .ok value → Inks rect color x y (step value)) :
    Inks rect color x y (fun picture => first >>= fun value => step value picture) := by
  cases first with
  | error fault =>
    refine ⟨none, fun before after done => ?_, .inl rfl⟩
    cases done
  | ok value => exact each value rfl

end Inks

/-- A step of drawing that gives one colour to all places of an area and leaves all others alone. -/
def Marks (color : Rgb) (area : Nat → Nat → Prop) (step : Picture → Except Fault Picture) : Prop :=
  ∀ x y, (area x y → Paints x y (some color) step) ∧ (¬ area x y → Paints x y none step)

namespace Marks

variable {color : Rgb} {area other : Nat → Nat → Prop} {step next : Picture → Except Fault Picture}

theorem ok (nowhere : ∀ x y, ¬ area x y) : Marks color area (fun picture => .ok picture) :=
  fun x y => ⟨fun inside => absurd inside (nowhere x y), fun _ => Paints.ok⟩

theorem congr (marks : Marks color area step) (same : ∀ x y, area x y ↔ other x y) :
    Marks color other step := by
  intro x y
  rw [← same]
  exact marks x y

theorem bind (first : Marks color area step) (second : Marks color other next) :
    Marks color (fun x y => area x y ∨ other x y) (fun picture => step picture >>= next) := by
  intro x y
  constructor
  · intro either
    by_cases late : other x y
    · by_cases early : area x y
      · exact ((first x y).1 early).bind ((second x y).1 late)
      · exact ((first x y).2 early).bind ((second x y).1 late)
    · exact ((first x y).1 (either.resolve_right late)).bind ((second x y).2 late)
  · intro neither
    obtain ⟨early, late⟩ := not_or.1 neither
    exact ((first x y).2 early).bind ((second x y).2 late)

theorem of_bind {first : Except Fault α} {step : α → Picture → Except Fault Picture}
    (each : ∀ value, first = .ok value → Marks color area (step value)) :
    Marks color area (fun picture => first >>= fun value => step value picture) := by
  cases first with
  | error fault =>
    intro x y
    refine ⟨fun _ before after done => ?_, fun _ before after done => ?_⟩
    · cases done
    · cases done
  | ok value => exact each value rfl

theorem setPixel (dotX dotY : Nat) (color : Rgb) :
    Marks color (fun x y => x = dotX ∧ y = dotY)
      (fun picture => .ok (picture.setPixel dotX dotY color)) := by
  intro x y
  refine ⟨fun here before after done => ?_, fun elsewhere before after done => ?_⟩
  · cases done
    have painted := Painted.setPixel (x := x) (y := y) before dotX dotY color
    rwa [if_pos ⟨here.1.symm, here.2.symm⟩] at painted
  · cases done
    have painted := Painted.setPixel (x := x) (y := y) before dotX dotY color
    rwa [if_neg fun here => elsewhere ⟨here.1.symm, here.2.symm⟩] at painted

theorem inks {rect : Rect} (marks : Marks color area step)
    (inside : area x y → rect.holds x y = true) : Inks rect color x y step := by
  by_cases marked : area x y
  · exact ⟨some color, (marks x y).1 marked, .inr ⟨rfl, inside marked⟩⟩
  · exact ⟨none, (marks x y).2 marked, .inl rfl⟩

end Marks

namespace Canvas

/-! ## Filled rectangles -/

private theorem some_if_or {early late : Prop} (whole : Prop) [Decidable early] [Decidable late]
    [Decidable whole] (same : whole ↔ late ∨ early) (color : Rgb) :
    (if late then some color else none).or (if early then some color else none)
      = if whole then some color else none := by
  by_cases second : late
  · rw [if_pos second, Option.some_or, if_pos (same.2 (.inl second))]
  · rw [if_neg second, Option.none_or]
    by_cases first : early
    · rw [if_pos first, if_pos (same.2 (.inr first))]
    · rw [if_neg first, if_neg fun either => (same.1 either).elim second first]

theorem painted_fillRow (color : Rgb) (row left count : Nat) (picture : Picture) :
    Painted x y (if row = y ∧ left ≤ x ∧ x < left + count then some color else none) picture
      (fillRow color row left count picture) := by
  induction count generalizing left picture with
  | zero =>
    rw [if_neg (by omega)]
    exact Painted.refl picture
  | succ count ih =>
    have whole := (Painted.setPixel (x := x) (y := y) picture left row color).trans
      (ih (left + 1) (picture.setPixel left row color))
    rwa [some_if_or (row = y ∧ left ≤ x ∧ x < left + (count + 1)) (by omega)] at whole

theorem painted_fillRows (color : Rgb) (left width top count : Nat) (picture : Picture) :
    Painted x y (if (left ≤ x ∧ x < left + width) ∧ top ≤ y ∧ y < top + count then some color
      else none) picture (fillRows color left width top count picture) := by
  induction count generalizing top picture with
  | zero =>
    rw [if_neg (by omega)]
    exact Painted.refl picture
  | succ count ih =>
    have whole := (painted_fillRow (x := x) (y := y) color top left width picture).trans
      (ih (top + 1) (fillRow color top left width picture))
    rwa [some_if_or ((left ≤ x ∧ x < left + width) ∧ top ≤ y ∧ y < top + (count + 1))
      (by omega)] at whole

theorem fill_paints (rect : Rect) (color : Rgb) :
    Paints x y (if rect.holds x y then some color else none) (fill · rect color) := by
  intro before after done
  unfold fill at done
  obtain ⟨right, rightSum, done⟩ := except_bind_eq_ok_iff.1 done
  obtain ⟨bottom, bottomSum, done⟩ := except_bind_eq_ok_iff.1 done
  obtain ⟨_, rfl⟩ := sumWithin_eq_ok_iff.1 rightSum
  obtain ⟨_, rfl⟩ := sumWithin_eq_ok_iff.1 bottomSum
  cases done
  have filled := painted_fillRows (x := x) (y := y) color rect.x
    (min (rect.x + rect.width) before.width - rect.x) rect.y
    (min (rect.y + rect.height) before.height - rect.y) before
  -- Outside the picture both sides have no pixel, so cutting the rectangle there makes no
  -- difference.
  by_cases inside : x < before.width ∧ y < before.height
  · have same : ((rect.x ≤ x ∧ x < rect.x + (min (rect.x + rect.width) before.width - rect.x)) ∧
        rect.y ≤ y ∧ y < rect.y + (min (rect.y + rect.height) before.height - rect.y)) ↔
          rect.holds x y = true := by
      rw [Rect.holds_iff]
      omega
    simpa only [same] using filled
  · have missing : before.pixel? x y = none := dif_neg inside
    unfold Painted at filled ⊢
    rw [missing] at filled ⊢
    exact filled

/-! ## Texts -/

theorem drawDot_marks {dotX dotY : Nat} {clip : Rect} (color : Rgb) (left : clip.x ≤ dotX)
    (top : clip.y ≤ dotY) :
    Marks color (fun x y => clip.holds x y = true ∧ x = dotX ∧ y = dotY)
      (drawDot · dotX dotY color clip) := by
  unfold drawDot
  refine Marks.of_bind fun right rightSum => ?_
  obtain ⟨_, rfl⟩ := sumWithin_eq_ok_iff.1 rightSum
  by_cases inColumns : dotX < clip.x + clip.width
  · simp only [if_pos inColumns]
    refine Marks.of_bind fun bottom bottomSum => ?_
    obtain ⟨_, rfl⟩ := sumWithin_eq_ok_iff.1 bottomSum
    by_cases inRows : dotY < clip.y + clip.height
    · simp only [if_pos inRows]
      refine (Marks.setPixel dotX dotY color).congr fun x y => ?_
      rw [Rect.holds_iff]
      omega
    · simp only [if_neg inRows]
      refine Marks.ok fun x y => ?_
      rw [Rect.holds_iff]
      omega
  · simp only [if_neg inColumns]
    refine Marks.ok fun x y => ?_
    rw [Rect.holds_iff]
    omega

theorem drawDots_marks {left top : Nat} (glyph : UInt64) (color : Rgb) {clip : Rect}
    (right : clip.x ≤ left) (below : clip.y ≤ top) (places : List (Nat × Nat)) :
    Marks color (fun x y => clip.holds x y = true ∧ ∃ place ∈ places,
        Glyph.hasDot glyph place.1 place.2 = true ∧ x = left + place.2 ∧ y = top + place.1)
      (drawDots left top glyph color clip places ·) := by
  induction places with
  | nil => exact Marks.ok (by simp)
  | cons place places ih =>
    obtain ⟨row, column⟩ := place
    simp only [drawDots]
    by_cases dotted : Glyph.hasDot glyph row column = true
    · simp only [if_pos dotted]
      refine Marks.of_bind fun dotX xSum => ?_
      refine Marks.of_bind fun dotY ySum => ?_
      obtain ⟨_, rfl⟩ := sumWithin_eq_ok_iff.1 xSum
      obtain ⟨_, rfl⟩ := sumWithin_eq_ok_iff.1 ySum
      have here := @drawDot_marks (left + column) (top + row) clip color (by omega) (by omega)
      exact (here.bind ih).congr (by simp [dotted, and_or_left])
    · simp only [if_neg dotted]
      exact ih.congr (by simp [dotted])

/-- A place shows a dot of a glyph whose upper left corner lies at another place. -/
def OnGlyph (character : Char) (left top x y : Nat) : Prop :=
  ∃ row < glyphSize, ∃ column < glyphSize,
    Glyph.hasDot (Glyph.ofChar character) row column = true ∧ x = left + column ∧ y = top + row

/-- A place shows a dot of a character. Bold characters have each dot a second time, one pixel to
the right. -/
def OnCharacter (character : Char) (bold : Bool) (left top x y : Nat) : Prop :=
  OnGlyph character left top x y ∨ bold = true ∧ OnGlyph character (left + 1) top x y

/-- A place shows a dot of one of the characters of a text, which stand one behind the other. -/
def OnText (text : List Char) (bold : Bool) (left top x y : Nat) : Prop :=
  ∃ index character, text[index]? = some character ∧
    OnCharacter character bold (left + index * glyphSize) top x y

theorem onText_cons {character : Char} {text : List Char} {bold : Bool} {left top : Nat} :
    OnText (character :: text) bold left top x y ↔
      OnCharacter character bold left top x y ∨ OnText text bold (left + glyphSize) top x y := by
  have next : ∀ index, left + (index + 1) * glyphSize = left + glyphSize + index * glyphSize := by
    intro index
    rw [Nat.succ_mul]
    omega
  constructor
  · intro shown
    obtain ⟨index, other, found, dotted⟩ := shown
    cases index with
    | zero =>
      cases found
      rw [Nat.zero_mul, Nat.add_zero] at dotted
      exact .inl dotted
    | succ index =>
      rw [next] at dotted
      exact .inr ⟨index, other, found, dotted⟩
  · intro either
    rcases either with dotted | later
    · refine ⟨0, character, rfl, ?_⟩
      rwa [Nat.zero_mul, Nat.add_zero]
    · obtain ⟨index, other, found, dotted⟩ := later
      refine ⟨index + 1, other, found, ?_⟩
      rwa [next]

theorem drawGlyph_marks {left top : Nat} (character : Char) (color : Rgb) {clip : Rect}
    (right : clip.x ≤ left) (below : clip.y ≤ top) :
    Marks color (fun x y => clip.holds x y = true ∧ OnGlyph character left top x y)
      (drawGlyph · left top character color clip) := by
  have places : ∀ place, place ∈ glyphPlaces ↔ place.1 < glyphSize ∧ place.2 < glyphSize := by
    intro place
    simp [glyphPlaces, glyphSize, Prod.ext_iff]
  refine (drawDots_marks (Glyph.ofChar character) color right below glyphPlaces).congr fun x y => ?_
  simp only [OnGlyph, places, Prod.exists, and_assoc, exists_and_left]

/-- A text marks the dots of its characters, as far as they lie in the rectangle of the text. -/
theorem drawGlyphs_marks {left top : Nat} (color : Rgb) (bold : Bool) {clip : Rect}
    (right : clip.x ≤ left) (below : clip.y ≤ top) (text : List Char) (position : Nat) :
    Marks color (fun x y => clip.holds x y = true ∧
        OnText text bold (left + position * glyphSize) top x y)
      (drawGlyphs left top color bold clip text position ·) := by
  induction text generalizing position with
  | nil => exact Marks.ok (by simp [OnText])
  | cons character text ih =>
    simp only [drawGlyphs]
    refine Marks.of_bind fun glyphX xSum => ?_
    obtain ⟨_, rfl⟩ := sumWithin_eq_ok_iff.1 xSum
    have next : left + (position + 1) * glyphSize = left + position * glyphSize + glyphSize := by
      rw [Nat.succ_mul]
      omega
    have thin : Marks color _
        (drawGlyph · (left + position * glyphSize) top character color clip) :=
      drawGlyph_marks character color (by omega) below
    have later := ih (position + 1)
    rw [next] at later
    cases bold with
    | false =>
      refine (thin.bind later).congr fun x y => ?_
      simp [onText_cons, OnCharacter, and_or_left]
    | true =>
      have thick : Marks color
          (fun x y => (clip.holds x y = true ∧
              OnGlyph character (left + position * glyphSize + 1) top x y) ∨
            clip.holds x y = true ∧
              OnText text true (left + position * glyphSize + glyphSize) top x y)
          (fun drawn => sumWithin 32 (left + position * glyphSize) 1 >>= fun shifted =>
            drawGlyph drawn shifted top character color clip >>=
              (drawGlyphs left top color true clip text (position + 1) ·)) := by
        refine Marks.of_bind fun shifted shiftedSum => ?_
        obtain ⟨_, rfl⟩ := sumWithin_eq_ok_iff.1 shiftedSum
        exact (drawGlyph_marks character color (by omega) below).bind later
      refine (thin.bind thick).congr fun x y => ?_
      simp [onText_cons, OnCharacter, and_or_left, or_assoc]

theorem le_of_textX {rect : Rect} {width left : Nat} {alignment : Alignment}
    (placed : textX rect width alignment = .ok left) : rect.x ≤ left := by
  cases alignment with
  | center =>
    obtain ⟨_, _, sum⟩ := except_bind_eq_ok_iff.1 placed
    obtain ⟨_, rfl⟩ := sumWithin_eq_ok_iff.1 sum
    omega
  | right padding =>
    obtain ⟨_, _, sum⟩ := except_bind_eq_ok_iff.1 placed
    obtain ⟨_, rfl⟩ := sumWithin_eq_ok_iff.1 sum
    omega
  | left padding =>
    obtain ⟨_, _, sum⟩ := except_bind_eq_ok_iff.1 placed
    obtain ⟨_, rfl⟩ := sumWithin_eq_ok_iff.1 sum
    omega

/-- A text replaces only pixels of its rectangle, and these with its own colour. -/
theorem drawText_inks (rect : Rect) (text : List Char) (color : Rgb) (alignment : Alignment)
    (bold : Bool) : Inks rect color x y (drawText · rect text color alignment bold) := by
  simp only [drawText]
  refine Inks.of_bind fun letters _ => ?_
  refine Inks.of_bind fun width _ => ?_
  refine Inks.of_bind fun left leftPlaced => ?_
  refine Inks.of_bind fun top topSum => ?_
  obtain ⟨_, rfl⟩ := sumWithin_eq_ok_iff.1 topSum
  have marks := drawGlyphs_marks color bold (le_of_textX leftPlaced)
    (Nat.le_add_right rect.y ((rect.height - glyphSize) / 2))
    (text.take (fitting rect.width bold)) 0
  exact marks.inks fun marked => marked.1

end Canvas

end GuildRoster
