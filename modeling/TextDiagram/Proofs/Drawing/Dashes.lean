import Mathlib
import TextDiagram.Drawing.Dash
import TextDiagram.Proofs.Loop
import TextDiagram.Proofs.Number.Unrounded
/-!
# Dashes cover a line at regular distances

A line is dashed from its start on. The loop goes on behind the stop of a dash, and the last dash stops
where the line does, so the loop need not go on ten units behind the start of a dash. Still, in arithmetic
without rounding, dash number `k` begins `10 k` units behind the start of the line, and it is six units
long unless the line ends before. A line without length is left before the loop. So is every line at scale
zero, where the loop would not end.

Main statements:

* `spans_eq_nil`, `spans_eq_cons`: the dashes by their numbers, one after the other.
* `EndsWithin.next`: a round of the loop over a line is a step towards its end.
* `dashes_loop`, `spans_of_loop`: the loop ends, with the dashes of these numbers.
* `endless_of_scale_zero`: without a step the loop would not end.
* `segment_lineMap`: what a dash covers, told by the distance from the start of the line.
* `dashes_cover_leg`: the dashes of a straight piece of a path, in pixels.
-/

namespace TextDiagram

variable {α : Type} [Scalar α] [Unrounded α]

/-- The place of a point in the plane of real numbers. -/
noncomputable def Point.toComplex (p : Point α) : ℂ := ⟨Unrounded.value p.x, Unrounded.value p.y⟩

/-- The points that a straight line covers, however wide it is drawn. -/
def Call.ink : Call α → Set ℂ
  | .line [p, q] _ _ => segment ℝ p.toComplex q.toComplex
  | _ => ∅

namespace Pen

/-! ## The dashes by their numbers -/

/-- The dashes of a line of a length from a position on, each from its start to its stop, at a scale. -/
noncomputable def spans (s length position : ℝ) : List (ℝ × ℝ) :=
  (List.range ⌈(length - position) / (10 * s)⌉₊).map fun k : ℕ =>
    (position + 10 * s * k, min (position + 10 * s * k + 6 * s) length)

section

variable {s length position : ℝ}

/-- Behind the end of a leg there are no dashes. -/
theorem spans_eq_nil (hs : 0 < s) (h : length ≤ position) : spans s length position = [] := by
  have hcount : ⌈(length - position) / (10 * s)⌉₊ = 0 := by
    rw [Nat.ceil_eq_zero]
    exact div_nonpos_of_nonpos_of_nonneg (by linarith) (by positivity)
  rw [spans, hcount, List.range_zero, List.map_nil]

/-- A dash starts at the position, and the next one a step further. -/
theorem spans_eq_cons_step (hs : 0 < s) (h : position < length) :
    spans s length position =
      (position, min (position + 6 * s) length) :: spans s length (position + 10 * s) := by
  have hsteps : 0 < (length - position) / (10 * s) := div_pos (by linarith) (by positivity)
  -- A step further there is one dash less.
  have hless : (length - (position + 10 * s)) / (10 * s) = (length - position) / (10 * s) - 1 := by
    field_simp
    ring
  have hcount : ⌈(length - position) / (10 * s)⌉₊ =
      ⌈(length - (position + 10 * s)) / (10 * s)⌉₊ + 1 := by
    rw [hless, Nat.ceil_sub_one, Nat.sub_add_cancel (Nat.ceil_pos.2 hsteps)]
  simp only [spans, hcount, List.range_succ_eq_map, List.map_cons, List.map_map]
  congr 1
  · simp
  · apply List.map_congr_left
    intro k _
    have hstep : position + 10 * s * (k.succ : ℝ) = position + 10 * s + 10 * s * k := by
      push_cast
      ring
    simp only [Function.comp_apply, hstep]

/-- The next dash begins a gap behind the stop of the first one, also if the first one is cut short: then
the line has no room for either start. -/
theorem spans_eq_cons (hs : 0 < s) (h : position < length) :
    spans s length position = (position, min (position + 6 * s) length) ::
      spans s length (min (position + 6 * s) length + 4 * s) := by
  rw [spans_eq_cons_step hs h]
  obtain hfull | hclipped := le_or_gt (position + 6 * s) length
  · have hnext : position + 10 * s = position + 6 * s + 4 * s := by ring
    rw [min_eq_left hfull, hnext]
  · rw [min_eq_right hclipped.le, spans_eq_nil hs (by linarith : length ≤ position + 10 * s),
      spans_eq_nil hs (by linarith : length ≤ length + 4 * s)]

end

/-! ## The loop -/

/-- The loop that dashes a line of a length from a position on ends, with these dashes. -/
def DashesFrom (scale length : α) : α → List (α × α) → Prop :=
  Loop (fun position => position < length)
    (fun position => [(position, Scalar.min (position + 6 * scale) length)])
    (fun position => Scalar.min (position + 6 * scale) length + 4 * scale)

variable {scale length position : α} {lines : List (α × α)}

/-- From the position the line ends within that many steps of a dash and a gap. -/
def EndsWithin (scale length : α) (n : ℕ) (position : α) : Prop :=
  Unrounded.value length ≤ Unrounded.value position + 10 * Unrounded.value scale * n

/-- With no steps left the position has reached the end. -/
theorem EndsWithin.not_lt (h : EndsWithin scale length 0 position) : ¬position < length := by
  rw [Unrounded.lt_iff]
  simpa [EndsWithin] using h

/-- A full dash brings the position one step on, and one that is cut short past the end. -/
theorem EndsWithin.next {n : ℕ} (hscale : 0 < Unrounded.value scale)
    (h : EndsWithin scale length (n + 1) position) :
    EndsWithin scale length n (Scalar.min (position + 6 * scale) length + 4 * scale) := by
  have hrest : 0 ≤ 10 * Unrounded.value scale * n := by positivity
  simp only [EndsWithin, Unrounded.value_add, Unrounded.value_mul, Unrounded.value_min,
    Unrounded.value_ofNat] at h ⊢
  push_cast at h ⊢
  obtain hfull | hclipped := le_or_gt (Unrounded.value position + 6 * Unrounded.value scale)
    (Unrounded.value length)
  · rw [min_eq_left hfull]
    linarith
  · rw [min_eq_right hclipped.le]
    linarith

/-- The number of steps that the loop is given is enough. -/
theorem endsWithin_ceil [RoundsUp α] (hscale : 0 < Unrounded.value scale) (length : α) :
    EndsWithin scale length ((Scalar.ceil (length / (10 * scale))).toNat + 1) 0 := by
  have hvalue : Unrounded.value (length / (10 * scale)) =
      Unrounded.value length / (10 * Unrounded.value scale) := by
    simp
  -- Rounding up covers the whole length.
  have hsteps := Nat.le_ceil (Unrounded.value length / (10 * Unrounded.value scale))
  rw [div_le_iff₀ (by positivity)] at hsteps
  rw [EndsWithin, RoundsUp.ceil_eq, hvalue, Int.ceil_toNat, Unrounded.value_ofNat]
  push_cast
  linarith

/-- The dashes are those of the loop, which ends by itself. -/
theorem dashes_loop [RoundsUp α] (hscale : 0 < Unrounded.value scale) (length : α) :
    DashesFrom scale length 0 (dashes scale length) :=
  Loop.of_countdown (dashesFrom (6 * scale) (4 * scale) length) (EndsWithin scale length)
    (fun _ => rfl) (fun _ _ => rfl) (fun _ h => h.not_lt) (fun _ _ h _ => h.next hscale)
    (endsWithin_ceil hscale length)

/-- The loop goes through the dashes of all numbers. -/
theorem spans_of_loop (hscale : 0 < Unrounded.value scale)
    (h : DashesFrom scale length position lines) :
    lines.map (Prod.map Unrounded.value Unrounded.value) =
      spans (Unrounded.value scale) (Unrounded.value length) (Unrounded.value position) := by
  induction h with
  | stop hstop =>
    rw [spans_eq_nil hscale (not_lt.1 (mt (Unrounded.lt_iff _ _).2 hstop)), List.map_nil]
  | round hgo _ ih =>
    rw [spans_eq_cons hscale ((Unrounded.lt_iff _ _).1 hgo), List.map_append, ih]
    simp [Unrounded.value_min]

/-- The dashes are the spans, by value. -/
theorem spans_of_dashes [RoundsUp α] (hscale : 0 < Unrounded.value scale) (length : α) :
    (dashes scale length).map (Prod.map Unrounded.value Unrounded.value) =
      spans (Unrounded.value scale) (Unrounded.value length) 0 := by
  rw [spans_of_loop hscale (dashes_loop hscale length), Unrounded.value_ofNat, Nat.cast_zero]

/-- There are as many dashes as steps fit into the length, rounded up. -/
theorem length_dashes [RoundsUp α] (hscale : 0 < Unrounded.value scale) (length : α) :
    (dashes scale length).length = ⌈Unrounded.value length / (10 * Unrounded.value scale)⌉₊ := by
  have hlength := congrArg List.length (spans_of_dashes hscale length)
  rwa [List.length_map, spans, List.length_map, List.length_range, sub_zero] at hlength

/-- Where dash number `k` begins and stops. -/
theorem value_getElem_dashes [RoundsUp α] (hscale : 0 < Unrounded.value scale) (length : α) {k : ℕ}
    (hk : k < (dashes scale length).length) :
    Unrounded.value (dashes scale length)[k].1 = 10 * Unrounded.value scale * k ∧
      Unrounded.value (dashes scale length)[k].2 =
        min (10 * Unrounded.value scale * k + 6 * Unrounded.value scale)
          (Unrounded.value length) := by
  have hget := congrArg (fun lines => lines[k]?) (spans_of_dashes hscale length)
  have hrange : k < ⌈(Unrounded.value length - 0) / (10 * Unrounded.value scale)⌉₊ := by
    rwa [sub_zero, ← length_dashes hscale]
  simp only [spans, List.getElem?_map, List.getElem?_eq_getElem hk, List.getElem?_range hrange,
    Option.map_some, zero_add, Option.some.injEq] at hget
  exact ⟨congrArg Prod.fst hget, congrArg Prod.snd hget⟩

/-- The last dash is cut short. -/
example : dashes (1 : Rat) 15 = [(0, 6), (10, 15)] := by decide +kernel

/-- Without a step the loop would not end. -/
theorem endless_of_scale_zero (hscale : Unrounded.value scale = 0) (h : position < length) :
    ¬DashesFrom scale length position lines := by
  intro hloop
  induction hloop with
  | stop hstop => exact hstop h
  | @round position _ _ _ ih =>
    -- The loop goes on where it is.
    have hnext : Scalar.min (position + 6 * scale) length + 4 * scale = position := by
      apply Unrounded.value_injective
      simp [Unrounded.value_min, hscale, ((Unrounded.lt_iff _ _).1 h).le]
    rw [hnext] at ih
    exact ih h

/-! ## A dash in the plane -/

/-- A point at a distance from the start of a line divides the line in the ratio of the distance and the
length. -/
theorem toComplex_along (a b : Point α) (length distance : α) :
    (along a ⟨(b.x - a.x) / length, (b.y - a.y) / length⟩ distance).toComplex =
      AffineMap.lineMap a.toComplex b.toComplex
        (Unrounded.value distance / Unrounded.value length) := by
  rw [AffineMap.lineMap_apply_module']
  apply Complex.ext
  · simp only [along, Point.toComplex, Unrounded.value_add, Unrounded.value_mul,
      Unrounded.value_div, Unrounded.value_sub, Complex.add_re, Complex.smul_re, Complex.sub_re,
      smul_eq_mul]
    ring
  · simp only [along, Point.toComplex, Unrounded.value_add, Unrounded.value_mul,
      Unrounded.value_div, Unrounded.value_sub, Complex.add_im, Complex.smul_im, Complex.sub_im,
      smul_eq_mul]
    ring

/-- Between two points of a line lie those of its points whose distances from its start are between
theirs. -/
theorem segment_lineMap {a b : ℂ} {first last : ℝ} (hab : 0 < dist a b) (hfirst : 0 ≤ first)
    (hle : first ≤ last) (hlast : last ≤ dist a b) :
    segment ℝ (AffineMap.lineMap a b (first / dist a b)) (AffineMap.lineMap a b (last / dist a b)) =
      {z ∈ segment ℝ a b | dist a z ∈ Set.Icc first last} := by
  have hdist : ∀ t : ℝ, 0 ≤ t → dist a (AffineMap.lineMap a b t) = t * dist a b := by
    intro t ht
    rw [dist_left_lineMap, Real.norm_of_nonneg ht]
  rw [← image_segment, segment_eq_Icc (by gcongr), segment_eq_image_lineMap]
  ext z
  constructor
  · rintro ⟨t, ⟨hstart, hstop⟩, rfl⟩
    have ht : 0 ≤ t := (by positivity : 0 ≤ first / dist a b).trans hstart
    refine ⟨⟨t, ⟨ht, hstop.trans (div_le_one_of_le₀ hlast hab.le)⟩, rfl⟩, ?_⟩
    rw [hdist t ht]
    exact ⟨(div_le_iff₀ hab).1 hstart, (le_div_iff₀ hab).1 hstop⟩
  · rintro ⟨⟨t, ⟨ht, -⟩, rfl⟩, hbetween⟩
    rw [hdist t ht] at hbetween
    exact ⟨t, ⟨(div_le_iff₀ hab).2 hbetween.1, (le_div_iff₀ hab).2 hbetween.2⟩, rfl⟩

/-! ## Dashed legs -/

section

variable [Trig α]

/-- The length of a straight piece of a path in pixels. -/
def pixelLength (pen : Pen) (leg : Segment α) : α :=
  Trig.hypot ((pen.point leg.stop).x - (pen.point leg.start).x)
    ((pen.point leg.stop).y - (pen.point leg.start).y)

/-- A dash of a straight piece of a path. -/
def dash (pen : Pen) (leg : Segment α) (fill : Color) (width : Int) (d : α × α) : Call α :=
  let a := pen.point leg.start
  let b := pen.point leg.stop
  let length := pen.pixelLength leg
  let direction : Point α := ⟨(b.x - a.x) / length, (b.y - a.y) / length⟩
  .line [along a direction d.1, along a direction d.2] fill width

/-- The drawing of a dashed leg ends, with these calls: a leg without length is left at once, any other
one is given the dashes of the loop over its length. -/
inductive StrokesLeg (pen : Pen) (leg : Segment α) (fill : Color) (width : Int) :
    List (Call α) → Prop where
  | point (hlength : (pen.pixelLength leg == 0) = true) : StrokesLeg pen leg fill width []
  | line {parts : List (α × α)} (hlength : (pen.pixelLength leg == 0) = false)
      (hloop : DashesFrom pen.factor (pen.pixelLength leg) 0 parts) :
      StrokesLeg pen leg fill width (parts.map (pen.dash leg fill width))

omit [Unrounded α] in
/-- A dashed leg is one call for each dash, and none without length. -/
theorem strokeDashedLeg_eq (pen : Pen) (leg : Segment α) (fill : Color) (width : Int) :
    pen.strokeDashedLeg leg fill width =
      if pen.pixelLength leg == 0 then []
      else (dashes pen.factor (pen.pixelLength leg)).map (pen.dash leg fill width) := rfl

/-- A dash inks the part of the leg between its ends. -/
theorem ink_dash (pen : Pen) (leg : Segment α) (fill : Color) (width : Int) (d : α × α) :
    (pen.dash leg fill width d).ink =
      segment ℝ
        (AffineMap.lineMap (pen.point leg.start).toComplex (pen.point leg.stop).toComplex
          (Unrounded.value d.1 / Unrounded.value (pen.pixelLength leg)))
        (AffineMap.lineMap (pen.point leg.start).toComplex (pen.point leg.stop).toComplex
          (Unrounded.value d.2 / Unrounded.value (pen.pixelLength leg))) := by
  rw [dash, Call.ink, toComplex_along, toComplex_along]

end

/-- The calls draw the dashes of a line at a scale. -/
structure IsDashed (s : ℝ) (start stop : ℂ) (fill : Color) (width : Int)
    (calls : List (Call RealScalar)) : Prop where
  /-- Every ten units of the line, also the last ones of less than ten, have a dash. -/
  count : calls.length = ⌈dist start stop / (10 * s)⌉₊
  line : ∀ call ∈ calls, ∃ p q, call = .line [p, q] fill width
  /-- Dash number `k` covers the line from the distance `10 k` on, for six units or to the end. -/
  ink : ∀ (k : ℕ) (hk : k < calls.length), calls[k].ink =
    {z ∈ segment ℝ start stop |
      dist start z ∈ Set.Icc (10 * s * k) (min (10 * s * k + 6 * s) (dist start stop))}
  gap : ∀ k : ℕ, k + 1 < calls.length →
    10 * s * (k + 1 : ℕ) - min (10 * s * k + 6 * s) (dist start stop) = 4 * s
  disjoint : calls.Pairwise fun call call' => Disjoint call.ink call'.ink

/-- Every dash that is counted starts before the end. -/
theorem lt_of_lt_count {s length : ℝ} (hs : 0 < s) {k : ℕ} (hk : k < ⌈length / (10 * s)⌉₊) :
    10 * s * k < length := by
  have hlt := Nat.lt_ceil.1 hk
  rwa [lt_div_iff₀ (by positivity), mul_comm] at hlt

/-- Dashes of these lengths keep their gaps: all but the last one are six units long. -/
theorem IsDashed.of_ink {s : ℝ} {start stop : ℂ} {fill : Color} {width : Int}
    {calls : List (Call RealScalar)} (hs : 0 < s)
    (hcount : calls.length = ⌈dist start stop / (10 * s)⌉₊)
    (hline : ∀ call ∈ calls, ∃ p q, call = .line [p, q] fill width)
    (hink : ∀ (k : ℕ) (hk : k < calls.length), calls[k].ink =
      {z ∈ segment ℝ start stop |
        dist start z ∈ Set.Icc (10 * s * k) (min (10 * s * k + 6 * s) (dist start stop))}) :
    IsDashed s start stop fill width calls where
  count := hcount
  line := hline
  ink := hink
  gap := by
    intro k hk
    have hnext := lt_of_lt_count hs (hcount ▸ hk)
    push_cast at hnext ⊢
    rw [min_eq_left (by linarith)]
    ring
  disjoint := by
    refine List.pairwise_iff_getElem.2 fun j k hj hk hjk => ?_
    rw [hink j hj, hink k hk, Set.disjoint_left]
    rintro z ⟨-, -, hbefore⟩ ⟨-, hbehind, -⟩
    -- The earlier dash ends at least four units before the next one starts.
    have hstop := hbefore.trans (min_le_left _ _)
    have hnumber : (j : ℝ) + 1 ≤ k := by exact_mod_cast hjk
    have hsteps : 10 * s * (j + 1) ≤ 10 * s * k := by gcongr
    linarith

variable {pen : Pen} {leg : Segment RealScalar} {fill : Color} {width : Int}

/-- The length of a leg is the distance of its ends. -/
theorem value_pixelLength (pen : Pen) (leg : Segment RealScalar) :
    Unrounded.value (pen.pixelLength leg) =
      dist (pen.point leg.start).toComplex (pen.point leg.stop).toComplex := by
  rw [dist_comm, Complex.dist_eq_re_im]
  rfl

/-- The factor of a pen is its scale. -/
theorem value_factor (pen : Pen) : Unrounded.value (pen.factor : α) = pen.scale :=
  Unrounded.value_intCast pen.scale

/-- A leg has no length exactly if its ends are in one place. -/
theorem pixelLength_beq_zero (pen : Pen) (leg : Segment RealScalar) :
    (pen.pixelLength leg == 0) = true ↔
      dist (pen.point leg.start).toComplex (pen.point leg.stop).toComplex = 0 := by
  rw [Unrounded.beq_iff, ← value_pixelLength, ← Unrounded.value_injective.eq_iff,
    Unrounded.value_ofNat, Nat.cast_zero]

/-- At scale zero all points are one. -/
theorem dist_of_scale_zero (hscale : pen.scale = 0) (leg : Segment RealScalar) :
    dist (pen.point leg.start).toComplex (pen.point leg.stop).toComplex = 0 := by
  have hpoint : ∀ p : Point RealScalar, (pen.point p).toComplex = 0 := by
    intro p
    apply Complex.ext <;> simp [Pen.point, Point.toComplex, value_factor, hscale]
  rw [hpoint, hpoint, dist_self]

/-- Drawing a dashed leg ends at every scale that is not negative. -/
theorem strokesLeg_iff (hscale : 0 ≤ pen.scale) {calls : List (Call RealScalar)} :
    StrokesLeg pen leg fill width calls ↔ calls = pen.strokeDashedLeg leg fill width := by
  -- The test for length is the only branch of the drawing.
  cases hlength : pen.pixelLength leg == 0 with
  | true =>
    rw [strokeDashedLeg_eq, if_pos hlength]
    constructor
    · intro h
      cases h with
      | point => rfl
      | line hline => exact absurd (hline.symm.trans hlength) Bool.false_ne_true
    · rintro rfl
      exact .point hlength
  | false =>
    rw [strokeDashedLeg_eq, if_neg (ne_true_of_eq_false hlength)]
    -- At scale zero the leg would have no length, so the loop has steps to make.
    have hpositive : 0 < Unrounded.value (pen.factor : RealScalar) := by
      rw [value_factor]
      refine Int.cast_pos.2 (lt_of_le_of_ne hscale fun hzero => ?_)
      have htrue := (pixelLength_beq_zero pen leg).2 (dist_of_scale_zero hzero.symm leg)
      exact absurd (hlength.symm.trans htrue) Bool.false_ne_true
    have hloop := dashes_loop hpositive (pen.pixelLength leg)
    constructor
    · intro h
      cases h with
      | point hpoint => exact absurd (hlength.symm.trans hpoint) Bool.false_ne_true
      | line _ hparts => rw [hparts.unique hloop]
    · rintro rfl
      exact .line hlength hloop

/-- A leg of some length is dashed as described. -/
theorem isDashed_strokeDashedLeg (hscale : 0 < pen.scale)
    (hlength : 0 < dist (pen.point leg.start).toComplex (pen.point leg.stop).toComplex) :
    IsDashed pen.scale (pen.point leg.start).toComplex (pen.point leg.stop).toComplex fill width
      (pen.strokeDashedLeg leg fill width) := by
  have hs : 0 < (pen.scale : ℝ) := Int.cast_pos.2 hscale
  have hfactor : 0 < Unrounded.value (pen.factor : RealScalar) := by rwa [value_factor]
  have hcalls : pen.strokeDashedLeg leg fill width =
      (dashes pen.factor (pen.pixelLength leg)).map (pen.dash leg fill width) := by
    rw [strokeDashedLeg_eq, if_neg (mt (pixelLength_beq_zero pen leg).1 hlength.ne')]
  have hcount : (dashes (pen.factor : RealScalar) (pen.pixelLength leg)).length =
      ⌈dist (pen.point leg.start).toComplex (pen.point leg.stop).toComplex / (10 * pen.scale)⌉₊ := by
    rw [length_dashes hfactor, value_pixelLength, value_factor]
  refine .of_ink hs ?_ ?_ ?_
  · rw [hcalls, List.length_map, hcount]
  · intro call hcall
    rw [hcalls] at hcall
    obtain ⟨d, -, rfl⟩ := List.mem_map.1 hcall
    exact ⟨_, _, rfl⟩
  · intro k hk
    simp only [hcalls, List.length_map] at hk
    obtain ⟨hstart, hstop⟩ := value_getElem_dashes hfactor (pen.pixelLength leg) hk
    rw [value_factor] at hstart hstop
    rw [value_pixelLength] at hstop
    -- No dash is empty: each begins before the end of the line.
    have hinside := lt_of_lt_count hs (hcount ▸ hk)
    simp only [hcalls, List.getElem_map, ink_dash, hstart, hstop, value_pixelLength]
    refine segment_lineMap hlength (by positivity) ?_ (min_le_right _ _)
    exact le_min (by linarith) hinside.le

/-- A straight piece of a path is dashed by a loop that ends, and the loop is not entered if the piece has
no length, as at scale zero. At any other scale `s` a line of length `L` in pixels is given `L / (10 s)`
dashes, rounded up. Number `k` covers the line from the distance `10 s k` from its start to the distance
`10 s k + 6 s`, or to its end if that is nearer; the gaps are `4 s` long, and no two dashes meet. -/
theorem dashes_cover_leg (pen : Pen) (hscale : 0 ≤ pen.scale) (leg : Segment RealScalar)
    (fill : Color) (width : Int) :
    let start := (pen.point leg.start).toComplex
    let stop := (pen.point leg.stop).toComplex
    (∀ calls, StrokesLeg pen leg fill width calls ↔ calls = pen.strokeDashedLeg leg fill width) ∧
      (0 < pen.scale → 0 < dist start stop →
        IsDashed pen.scale start stop fill width (pen.strokeDashedLeg leg fill width)) ∧
      (pen.scale = 0 ∨ dist start stop = 0 →
        (pen.pixelLength leg == 0) = true ∧ pen.strokeDashedLeg leg fill width = []) := by
  intro start stop
  refine ⟨fun calls => strokesLeg_iff hscale, isDashed_strokeDashedLeg, fun hnone => ?_⟩
  have hlength : (pen.pixelLength leg == 0) = true := by
    rw [pixelLength_beq_zero]
    exact hnone.elim (fun hzero => dist_of_scale_zero hzero leg) id
  exact ⟨hlength, by rw [strokeDashedLeg_eq, if_pos hlength]⟩

/-- A line that is fifteen pixels long has two dashes, the second one five long. -/
theorem dashes_cover_leg_of_two_dashes :
    let pen : Pen := ⟨Config.light, 1⟩
    let leg : Segment RealScalar := ⟨⟨0, 0⟩, ⟨9, 12⟩⟩
    let start := (pen.point leg.start).toComplex
    let stop := (pen.point leg.stop).toComplex
    let calls := pen.strokeDashedLeg leg ⟨0, 0, 0⟩ 2
    0 ≤ pen.scale ∧ dist start stop = 15 ∧ calls.length = 2 ∧
      ∀ hk : 1 < calls.length,
        calls[1].ink = {z ∈ segment ℝ start stop | dist start z ∈ Set.Icc 10 15} := by
  intro pen leg start stop calls
  have hpoint : ∀ p : Point RealScalar, (pen.point p).toComplex = p.toComplex := by
    intro p
    apply Complex.ext <;> simp [pen, Pen.point, Point.toComplex, value_factor]
  have hlength : dist start stop = 15 := by
    change dist (pen.point leg.start).toComplex (pen.point leg.stop).toComplex = 15
    rw [hpoint, hpoint, Complex.dist_eq_re_im]
    simp only [leg, Point.toComplex, Unrounded.value_ofNat]
    rw [Real.sqrt_eq_iff_mul_self_eq (by positivity) (by norm_num)]
    norm_num
  have hpositive : 0 < dist start stop := by
    rw [hlength]
    norm_num
  -- A leg of length 15 at scale 1 has two dashes, the second one cut short.
  have hdashed := (dashes_cover_leg pen (by decide) leg ⟨0, 0, 0⟩ 2).2.1 (by decide) hpositive
  refine ⟨by decide, hlength, ?_, fun hk => ?_⟩
  · have hcount := hdashed.count
    rw [hlength] at hcount
    rw [hcount, Nat.ceil_eq_iff (by decide)]
    norm_num [pen]
  · have hink := hdashed.ink 1 hk
    have hbegin : 10 * (pen.scale : ℝ) * (1 : ℕ) = 10 := by norm_num [pen]
    have hend : min (10 + 6 * (pen.scale : ℝ)) 15 = 15 := by norm_num [pen]
    rw [hlength, hbegin, hend] at hink
    exact hink

end Pen

end TextDiagram
