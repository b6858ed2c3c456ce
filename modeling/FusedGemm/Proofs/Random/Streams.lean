import FusedGemm.Proofs.Random.Turns
import FusedGemm.Proofs.Random.Uniform
import FusedGemm.Proofs.Tensor.Bounds
import FusedGemm.Proofs.Tensor.Copying

/-!
# Fills as streams

A fill that goes by storage order gives each storage element a number that depends on its index, the
element type and the seed only (`Fill.element`), so tensors of one type agree on the elements that
both have.  A drawn element takes one draw, or two where the type is complex.  The draws of a uniform
fill are uniform numbers rounded to integers that the type holds, one word of the generator each;
those of a gaussian fill are numbers of the normal distribution, wherever such a number is found
(`Tensor.fillFrom_stream`).  The fill that draws one storage element after the other,
`Tensor.drawChecked?`, gives the same contents.
-/

namespace FusedGemm

namespace ElementType

/-- The parts of an element. -/
def parts (t : ElementType) : Nat := if t.isComplex then 2 else 1

end ElementType

namespace Fill

variable {type : ElementType} {part : Draw Float} {g : Generator}

theorem drawMany_eq {α : Type} (d : Draw α) (n : Nat) (g : Generator) :
    drawMany d n g = (List.range n).map fun i => d.nth i g := by
  induction n generalizing g with
  | zero => rfl
  | succ n ih =>
    rw [List.range_succ_eq_map, List.map_cons, List.map_map]
    exact congrArg _ (ih (d g).2)

theorem drawElement_of_real (h : type.isComplex = false) :
    drawElement type part g = (.ofReal (part g).1, (part g).2) := by
  unfold drawElement
  rw [h]
  rfl

theorem drawElement_of_complex (h : type.isComplex = true) :
    drawElement type part g = (⟨(part g).1, (part (part g).2).1⟩, (part (part g).2).2) := by
  unfold drawElement
  rw [h]
  rfl

/-- The element at a storage index: one number that is drawn after those of the elements before it,
or two where the type is complex, the real part first. -/
def drawn (type : ElementType) (part : Draw Float) (g : Generator) (i : Nat) : ComplexFloat :=
  if type.isComplex then ⟨part.nth (2 * i) g, part.nth (2 * i + 1) g⟩ else .ofReal (part.nth i g)

/-- An element takes as many draws as it has parts. -/
theorem after_drawElement (n : Nat) :
    (drawElement type part).after n g = part.after (type.parts * n) g := by
  induction n with
  | zero => rfl
  | succ n ih =>
    rw [Draw.after_succ, ih]
    unfold ElementType.parts
    cases h : type.isComplex with
    | false =>
      rw [drawElement_of_real h, if_neg Bool.false_ne_true, Nat.one_mul, Nat.one_mul,
        Draw.after_succ]
    | true => rw [drawElement_of_complex h, if_pos rfl, Nat.mul_succ, Draw.after_add]; rfl

theorem nth_drawElement (i : Nat) : (drawElement type part).nth i g = drawn type part g i := by
  unfold Draw.nth drawn
  rw [after_drawElement]
  unfold ElementType.parts
  cases h : type.isComplex with
  | false =>
    rw [drawElement_of_real h, if_neg Bool.false_ne_true, if_neg Bool.false_ne_true, Nat.one_mul]
    rfl
  | true =>
    rw [drawElement_of_complex h, if_pos rfl, if_pos rfl, Draw.nth, Draw.nth, Draw.after_succ]

/-- How a random fill draws one number. -/
def part? : Fill → ElementType → Option (Draw Float)
  | .uniform, type => some (Draw.uniformInteger (uniformRange type).1 (uniformRange type).2)
  | .gaussian, _ => some ((0.5 * ·) <$> Draw.standardNormal)
  | _, _ => none

/-- The number that a fill gives a storage element, if it goes by storage order. -/
def element (fill : Fill) (type : ElementType) (seed : UInt64) (i : Nat) : ComplexFloat :=
  match fill with
  | .uniform => (uniformElement type).nth i (.ofSeed seed)
  | .gaussian => (gaussianElement type).nth i (.ofSeed seed)
  | .identity => .zero
  | .sequential => .ofReal (Float.ofNat i)
  | .ones => .ofReal 1

theorem stream_eq (fill : Fill) (type : ElementType) (seed : UInt64) (n : Nat) :
    fill.stream type seed n = (List.range n).map (fill.element type seed) := by
  have hconst : ∀ z : ComplexFloat, List.replicate n z = (List.range n).map fun _ => z := by
    intro z
    rw [List.map_const', List.length_range]
  cases fill with
  | uniform => exact drawMany_eq _ n _
  | gaussian => exact drawMany_eq _ n _
  | identity => exact hconst _
  | sequential => rfl
  | ones => exact hconst _

/-- A random fill gives a storage element what is drawn for it. -/
theorem element_eq_drawn {fill : Fill} (h : fill.part? type = some part) (seed : UInt64) (i : Nat) :
    fill.element type seed i = drawn type part (.ofSeed seed) i := by
  cases fill with
  | uniform =>
    obtain rfl := Option.some.inj h
    exact nth_drawElement i
  | gaussian =>
    obtain rfl := Option.some.inj h
    exact nth_drawElement i
  | identity => cases h
  | sequential => cases h
  | ones => cases h

end Fill

namespace Tensor

/-! ### Filling in storage order -/

/-- The storage with numbers stored at its first `n` indices. -/
def firstCodes (type : ElementType) (codes : Array (Code type)) (f : Nat → ComplexFloat) (n : Nat) :
    Array (Code type) :=
  .ofFn fun i : Fin codes.size => if i < n then type.encode (f i) else codes[i]

section FirstCodes
variable {type : ElementType} {codes : Array (Code type)} {f : Nat → ComplexFloat} {n : Nat}

@[simp] theorem size_firstCodes : (firstCodes type codes f n).size = codes.size := Array.size_ofFn

theorem getElem?_firstCodes (i : Nat) : (firstCodes type codes f n)[i]? =
    if i < n ∧ i < codes.size then some (type.encode (f i)) else codes[i]? := by
  unfold firstCodes
  rw [Array.getElem?_ofFn]
  by_cases hi : i < codes.size
  · rw [dif_pos hi]
    show some (if i < n then type.encode (f i) else codes[i]) = _
    by_cases hn : i < n
    · rw [if_pos hn, if_pos ⟨hn, hi⟩]
    · rw [if_neg hn, if_neg (mt And.left hn), Array.getElem?_eq_getElem hi]
  · rw [dif_neg hi, if_neg (mt And.right hi), Array.getElem?_eq_none (Nat.le_of_not_lt hi)]

theorem firstCodes_zero : firstCodes type codes f 0 = codes := by
  refine Array.ext_getElem? fun i => ?_
  rw [getElem?_firstCodes, if_neg (mt And.left (Nat.not_lt_zero i))]

theorem setIfInBounds_firstCodes :
    (firstCodes type codes f n).setIfInBounds n (type.encode (f n)) =
      firstCodes type codes f (n + 1) := by
  refine Array.ext_getElem? fun i => ?_
  rw [Array.getElem?_setIfInBounds, size_firstCodes, getElem?_firstCodes, getElem?_firstCodes]
  by_cases heq : n = i
  · subst heq
    by_cases hn : n < codes.size
    · rw [if_pos rfl, if_pos hn, if_pos ⟨Nat.lt_succ_self n, hn⟩]
    · rw [if_pos rfl, if_neg hn, if_neg (mt And.right hn),
        Array.getElem?_eq_none (Nat.le_of_not_lt hn)]
  · have hlt : i < n + 1 ↔ i < n := by omega
    simp only [if_neg heq, hlt]

end FirstCodes

variable (t : Tensor)

/-- The tensor with numbers stored at its first `n` indices. -/
def withFirst (f : Nat → ComplexFloat) (n : Nat) : Tensor :=
  t.withCodes (firstCodes t.type t.codes f n)

@[simp] theorem size_withFirst (f : Nat → ComplexFloat) (n : Nat) :
    (t.withFirst f n).codes.size = t.codes.size := size_firstCodes

section WithFirst
variable {t} (f : Nat → ComplexFloat) {i : Nat} (hi : i < t.codes.size)
include hi

theorem toNat_withFirst : ((t.withFirst f t.codes.size).codes.getD i 0).toNat =
    (t.type.encode (f i)).toNat := by
  show ((firstCodes t.type t.codes f t.codes.size).getD i 0).toNat = _
  rw [Array.getD_eq_getD_getElem?, getElem?_firstCodes, if_pos ⟨hi, hi⟩]
  rfl

theorem get_withFirst : (t.withFirst f t.codes.size).get i = t.type.quantize (f i) :=
  congrArg t.type.decode (BitVec.eq_of_toNat_eq (toNat_withFirst f hi))

end WithFirst

theorem fillFrom_eq {fill : Fill} (h : fill ≠ .identity) (seed : UInt64) :
    t.fillFrom fill seed = t.withFirst (fill.element t.type seed) t.codes.size := by
  have hstream : t.ofStream fill seed = t.withFirst (fill.element t.type seed) t.codes.size := by
    unfold ofStream
    rw [Fill.stream_eq]
    refine congrArg t.withCodes (Array.ext_getElem? fun i => ?_)
    rw [getElem?_firstCodes, List.getElem?_toArray, List.getElem?_map, List.getElem?_map]
    by_cases hi : i < t.codes.size
    · rw [if_pos ⟨hi, hi⟩, List.getElem?_range hi]
      rfl
    · rw [if_neg (mt And.left hi), Array.getElem?_eq_none (Nat.le_of_not_lt hi),
        List.getElem?_eq_none (by rw [List.length_range]; omega)]
      rfl
  cases fill with
  | identity => exact absurd rfl h
  | uniform => exact hstream
  | gaussian => exact hstream
  | sequential => exact hstream
  | ones => exact hstream

/-- A random fill stores one more element. -/
def drawStep (part : Draw Float) : Tensor × Generator → Nat → Option (Tensor × Generator)
  | (u, g), i => do
    let (z, g) := Fill.drawElement u.type part g
    return (← u.put? i z, g)

/-- A random fill, one storage element after the other and each access checked, together with the
generator that it leaves. -/
def drawChecked? (part : Draw Float) (g : Generator) : Option (Tensor × Generator) :=
  (List.range t.codes.size).foldlM (drawStep part) (t, g)

section DrawStep
variable (part : Draw Float) (g : Generator)

theorem drawStep_withFirst {n : Nat} (hn : n < t.codes.size) :
    drawStep part (t.withFirst (Fill.drawn t.type part g) n,
        (Fill.drawElement t.type part).after n g) n =
      some (t.withFirst (Fill.drawn t.type part g) (n + 1),
        (Fill.drawElement t.type part).after (n + 1) g) := by
  have hput : (t.withFirst (Fill.drawn t.type part g) n).put? n
      ((Fill.drawElement t.type part).nth n g) =
        some (t.withFirst (Fill.drawn t.type part g) (n + 1)) := by
    have hlt : n < (firstCodes t.type t.codes (Fill.drawn t.type part g) n).size := by
      rwa [size_firstCodes]
    rw [Fill.nth_drawElement]
    exact (if_pos hlt).trans (congrArg (some ∘ t.withCodes) setIfInBounds_firstCodes)
  rw [Draw.after_succ]
  show ((t.withFirst (Fill.drawn t.type part g) n).put? n
    ((Fill.drawElement t.type part).nth n g)).bind (fun u =>
      some (u, (Fill.drawElement t.type part ((Fill.drawElement t.type part).after n g)).2)) = _
  rw [hput]
  rfl

/-- Drawing the first elements stores them, and no access fails. -/
theorem foldlM_drawStep {n : Nat} (hn : n ≤ t.codes.size) :
    (List.range n).foldlM (drawStep part) (t, g) = some
      (t.withFirst (Fill.drawn t.type part g) n, (Fill.drawElement t.type part).after n g) := by
  induction n with
  | zero =>
    unfold withFirst
    rw [firstCodes_zero]
    rfl
  | succ n ih =>
    rw [List.range_succ, List.foldlM_append, ih (Nat.le_of_succ_le hn)]
    show (drawStep part _ n).bind pure = _
    rw [drawStep_withFirst t part g hn]
    rfl

theorem drawChecked?_eq_some :
    t.drawChecked? part g = some (t.withFirst (Fill.drawn t.type part g) t.codes.size,
      part.after (t.type.parts * t.codes.size) g) := by
  rw [drawChecked?, foldlM_drawStep t part g le_rfl, Fill.after_drawElement]

end DrawStep

/-! ### Streams -/

/-- What has been stored is the number that was drawn, an integer of the range. -/
structure KeepsInteger (bound : Int) (x stored : Float) : Prop where
  isFinite : stored.isFinite = true
  exists_integer : ∃ k : Int, |k| ≤ bound ∧ rational x = k ∧ rational stored = k

/-- A draw of a uniform fill takes one word, spreads its upper 52 bits over the range and rounds. -/
theorem part_uniform (type : ElementType) {part : Draw Float}
    (h : Fill.part? .uniform type = some part) (g : Generator) :
    let limit : Float := if type.bits ≤ 8 then 1 else 4
    let x := (Draw.uniform (-limit) limit g).1
    let bound : ℚ := if type.bits ≤ 8 then 1 else 4
    part g = (roundAway x, g.next.2) ∧ x.isFinite = true ∧ -bound ≤ rational x ∧
      rational x < bound ∧
      rational x = 2 * bound * ((g.next.1.toNat / 2 ^ 12 : Nat) / 2 ^ 52) - bound := by
  intro limit x bound
  have hrange : Fill.uniformRange type = (-limit, limit) := by
    unfold limit Fill.uniformRange
    split_ifs <;> rfl
  have hbound : bound = 2 ^ Fill.uniformExponent type := by
    unfold bound Fill.uniformExponent
    split_ifs
    · exact (pow_zero 2).symm
    · norm_num
  obtain rfl := Option.some.inj h
  have hspans := Fill.spans_uniformRange type
  have hle := Fill.uniformExponent_le type
  rw [hrange] at hspans ⊢
  obtain ⟨hfinite, hlow, hhigh⟩ := Draw.uniform_mem hspans hle g
  have hvalue := (Draw.rational_uniform hspans hle g).2
  rw [Draw.dyadic_sub_fifty_one, ← hbound] at hvalue
  rw [← hbound] at hlow hhigh
  exact ⟨rfl, hfinite, hlow, hhigh, hvalue⟩

/-- A draw of a gaussian fill is half a number of the normal distribution. -/
theorem part_gaussian (type : ElementType) {part : Draw Float}
    (h : Fill.part? .gaussian type = some part) (g : Generator) :
    part g = (0.5 * (Draw.standardNormal g).1, (Draw.standardNormal g).2) := by
  obtain rfl := Option.some.inj h
  rfl

/-- A type keeps the integers that are drawn for it. -/
theorem keepsInteger_nth (type : ElementType) {part : Draw Float}
    (h : Fill.part? .uniform type = some part) (i : Nat) (g : Generator) :
    KeepsInteger (if type.bits ≤ 8 then 1 else 4) (part.nth i g)
      (type.quantizePart (part.nth i g)) := by
  have hbound : (if type.bits ≤ 8 then 1 else 4 : Int) = 2 ^ Fill.uniformExponent type := by
    unfold Fill.uniformExponent
    split_ifs <;> rfl
  obtain rfl := Option.some.inj h
  obtain ⟨hfinite, k, hk, hvalue⟩ := Draw.uniformInteger_mem (Fill.spans_uniformRange type)
    (Fill.uniformExponent_le type) (Draw.after _ i g)
  obtain ⟨hfinite', hstored⟩ := Fill.quantizePart_integer type hfinite hk hvalue
  rw [hbound]
  exact ⟨hfinite', k, hk, hvalue, hstored⟩

/-- So it does with a whole element. -/
theorem keepsInteger_drawn (type : ElementType) {part : Draw Float}
    (h : Fill.part? .uniform type = some part) (g : Generator) (i : Nat) :
    let z := Fill.drawn type part g i
    KeepsInteger (if type.bits ≤ 8 then 1 else 4) z.re (type.quantize z).re ∧
      KeepsInteger (if type.bits ≤ 8 then 1 else 4) z.im (type.quantize z).im := by
  intro z
  cases hcomplex : type.isComplex with
  | true =>
    have hz : z = ⟨part.nth (2 * i) g, part.nth (2 * i + 1) g⟩ := if_pos hcomplex
    rw [type.quantize_of_complex z hcomplex, hz]
    exact ⟨keepsInteger_nth type h _ g, keepsInteger_nth type h _ g⟩
  | false =>
    have hz : z = .ofReal (part.nth i g) := if_neg (Bool.eq_false_iff.mp hcomplex)
    have hfinite : (0 : Float).isFinite = true := by decide
    have hzero : rational 0 = (0 : Int) := by decide +kernel
    rw [type.quantize_of_real z hcomplex, hz]
    refine ⟨keepsInteger_nth type h i g, hfinite, 0, ?_, hzero, hzero⟩
    split_ifs <;> decide

/-- **Fills are streams.**  Whatever their layouts and their contents before, tensors of one type
that are filled from one seed have the same codes as far as both reach.  A random fill takes one draw
for each element, and two for a complex one, its real part first.

A draw of a uniform fill takes one word of the generator, whose upper bits it spreads over the
half-open range from -1 to 1 in types of 8 bits and from -4 to 4 in wider ones, and rounds; the
integers that come out are of the closed range and are stored as they are.  A draw of a gaussian
fill gives half a number of the normal distribution, which takes at least one word wherever it is
found. -/
theorem fillFrom_stream {fill : Fill} (hfill : fill ≠ .identity) {t u : Tensor}
    (htype : t.type = u.type) (hsize : t.codes.size ≤ u.codes.size) (seed : UInt64) :
    (∀ i < t.codes.size, (t.fillFrom fill seed).sameCode? i (u.fillFrom fill seed) i = some true) ∧
    ∀ part, fill.part? t.type = some part →
      t.drawChecked? part (.ofSeed seed) = some (t.fillFrom fill seed,
        part.after ((if t.type.isComplex then 2 else 1) * t.codes.size) (.ofSeed seed)) ∧
      t.fillFrom fill seed = t.withCodes (.ofFn fun i : Fin t.codes.size =>
        t.type.encode (Fill.drawn t.type part (.ofSeed seed) i)) ∧
      (fill = .uniform →
        (∀ g,
          let limit : Float := if t.type.bits ≤ 8 then 1 else 4
          let x := (Draw.uniform (-limit) limit g).1
          let bound : ℚ := if t.type.bits ≤ 8 then 1 else 4
          part g = (roundAway x, g.next.2) ∧ x.isFinite = true ∧ -bound ≤ rational x ∧
            rational x < bound ∧
            rational x = 2 * bound * ((g.next.1.toNat / 2 ^ 12 : Nat) / 2 ^ 52) - bound) ∧
        ∀ i < t.codes.size,
          let z := Fill.drawn t.type part (.ofSeed seed) i
          let stored := (t.fillFrom fill seed).get i
          KeepsInteger (if t.type.bits ≤ 8 then 1 else 4) z.re stored.re ∧
            KeepsInteger (if t.type.bits ≤ 8 then 1 else 4) z.im stored.im) ∧
      (fill = .gaussian → ∀ g,
        part g = (0.5 * (Draw.standardNormal g).1, (Draw.standardNormal g).2) ∧
        ∀ x g', Draw.FindsNormal g x g' →
          Draw.standardNormal g = (x, g') ∧ ∃ words ≥ 1, g' = Draw.word.after words g) := by
  rw [fillFrom_eq t hfill, fillFrom_eq u hfill]
  refine ⟨fun i hi => ?_, fun part hpart => ?_⟩
  · have hi' := hi.trans_le hsize
    refine (sameCode?_eq_some_true_iff (t := t.withFirst _ _) (u := u.withFirst _ _)
      htype).mpr ⟨⟨?_, ?_⟩, ?_⟩
    · rwa [size_withFirst]
    · rwa [size_withFirst]
    · refine (toNat_withFirst _ hi).trans (Eq.trans ?_ (toNat_withFirst _ hi').symm)
      rw [htype]
  · rw [funext (Fill.element_eq_drawn hpart seed)]
    refine ⟨drawChecked?_eq_some t part _, ?_, ?_, ?_⟩
    · refine congrArg t.withCodes (congrArg Array.ofFn (funext fun i => ?_))
      exact if_pos i.isLt
    · rintro rfl
      refine ⟨part_uniform t.type hpart, fun i hi => ?_⟩
      rw [get_withFirst _ hi]
      exact keepsInteger_drawn t.type hpart _ i
    · rintro rfl g
      exact ⟨part_gaussian t.type hpart g, fun x g' h => ⟨h.standardNormal_eq, h.exists_words⟩⟩

/-- Two complex numbers in a column and four in a matrix, the column taking four draws of a word
each. -/
theorem fillFrom_stream_complex :
    let t : Tensor := ⟨"alpha", .c32, .vector 2, #[7, 7]⟩
    let u : Tensor := .zeros "A" .c32 ⟨⟨2, 2, 1⟩, ⟨1, 2, 0⟩⟩
    (t.fillFrom .uniform 4096).sameCode? 1 (u.fillFrom .uniform 4096) 1 = some true ∧
      ∃ part, Fill.part? .uniform .c32 = some part ∧
        t.drawChecked? part (.ofSeed 4096) =
          some (t.fillFrom .uniform 4096, part.after 4 (.ofSeed 4096)) ∧
        (part (.ofSeed 4096)).2 = (Generator.ofSeed 4096).next.2 ∧
        KeepsInteger 4 (part.nth 3 (.ofSeed 4096)) ((t.fillFrom .uniform 4096).get 1).im := by
  intro t u
  obtain ⟨hsame, hdraws⟩ := @fillFrom_stream .uniform (by decide) t u rfl (by decide) 4096
  obtain ⟨hchecked, -, huniform, -⟩ := hdraws _ rfl
  obtain ⟨hpart, hinteger⟩ := huniform rfl
  exact ⟨hsame 1 (by decide), _, rfl, hchecked, congrArg Prod.snd (hpart _).1,
    (hinteger 1 (by decide)).2⟩

end Tensor

end FusedGemm
