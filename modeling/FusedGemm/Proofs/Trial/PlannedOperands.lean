import FusedGemm.Proofs.Tensor.Storing
import FusedGemm.Proofs.Trial.Materialization

/-!
# The operands of a materialized case

Every tensor of a plan is alike the zeros of a packed layout, a column or a single element, and so
is compact.  The operands of a materialized case are these tensors, all in device memory but alpha,
beta and the scale factors, which may be on the host only.
-/

namespace FusedGemm

/-- The extent of an output. -/
def Channel.extent (channel : Channel) (p : Problem) : Extent :=
  match channel with
  | .d | .aux => p.outputExtent
  | .biasGradient => ⟨p.m, 1, 1⟩
  | .absMaxD | .absMaxAux => ⟨1, 1, 1⟩

theorem exists_of_placement_eq_ok {ε : Type} {x : Except ε Tensor} {onDevice : Bool}
    {placement : Placement} (h : Placement.mk <$> x <*> pure onDevice = .ok placement) :
    ∃ t, x = .ok t ∧ placement = ⟨t, onDevice⟩ := by
  cases x with
  | error e => cases h
  | ok t => exact ⟨t, rfl, (Except.ok.inj h).symm⟩

/-! ### Contents -/

namespace Fill

theorem length_drawMany {α : Type} (draw : Draw α) (n : Nat) (g : Generator) :
    (drawMany draw n g).length = n := by
  induction n generalizing g with
  | zero => rfl
  | succ n ih => exact congrArg (· + 1) (ih _)

theorem length_stream (fill : Fill) (type : ElementType) (seed : UInt64) (n : Nat) :
    (fill.stream type seed n).length = n := by
  cases fill <;> simp [stream, length_drawMany]

end Fill

namespace Tensor

variable {t : Tensor}

theorem compact_zeros {layout : Layout} (h : layout.Dense) (name : String) (type : ElementType) :
    (zeros name type layout).Compact := ⟨size_zeros name type layout, h⟩

theorem alike_fill (t : Tensor) (x : Float) : t.Alike (t.fill x) := ⟨rfl, rfl, by simp [fill]⟩

theorem alike_ofStream (t : Tensor) (fill : Fill) (seed : UInt64) :
    t.Alike (t.ofStream fill seed) :=
  ⟨rfl, rfl, by simp [ofStream, withCodes, Fill.length_stream]⟩

theorem alike_fillFrom (t : Tensor) (fill : Fill) (seed : UInt64) :
    t.Alike (t.fillFrom fill seed) := by
  cases fill with
  | identity => exact (alike_ofStream t _ seed).trans (alike_writeAll _ _ _)
  | uniform => exact alike_ofStream t _ seed
  | gaussian => exact alike_ofStream t _ seed
  | sequential => exact alike_ofStream t _ seed
  | ones => exact alike_ofStream t _ seed

theorem alike_withLeadingOne (t : Tensor) : t.Alike t.withLeadingOne := by
  unfold withLeadingOne
  split_ifs
  · exact alike_write t _ _
  · exact .refl t

theorem alike_ramp (t : Tensor) (x : Float) : t.Alike (t.ramp x) := alike_writeAll t _ _

theorem packed_eq_ok {name : String} {type : ElementType} {order : MatrixOrder} {e : Extent}
    (h : packed name type order e = .ok t) :
    ∃ layout, order.packed? e = some layout ∧ t = zeros name type layout := by
  unfold packed packed? at h
  cases hl : order.packed? e with
  | none => rw [hl] at h; cases h
  | some layout =>
    refine ⟨layout, rfl, ?_⟩
    cases hs : layout.span? with
    | none => simp [hl, hs] at h
    | some span =>
      cases hm : AddressSpace.mul? span type.size with
      | none => simp [hl, hs, hm] at h
      | some bytes => simpa [hl, hs, hm, eq_comm] using h

/-- The tensor is compact, of the given type and extent. -/
structure Packed (t : Tensor) (type : ElementType) (e : Extent) : Prop where
  compact : t.Compact
  type_eq : t.type = type
  extent_eq : t.extent = e

theorem Packed.of_alike {u : Tensor} {type : ElementType} {e : Extent} (h : t.Packed type e)
    (ha : t.Alike u) : u.Packed type e where
  compact := h.compact.of_alike ha
  type_eq := ha.type_eq.trans h.type_eq
  extent_eq := ha.extent_eq.trans h.extent_eq

theorem packed_of_eq_ok {name : String} {type : ElementType} {order : MatrixOrder} {e : Extent}
    (h : packed name type order e = .ok t) : t.Packed type e := by
  obtain ⟨layout, hl, rfl⟩ := packed_eq_ok h
  exact ⟨compact_zeros (MatrixOrder.dense_of_packed? hl) name type, rfl,
    MatrixOrder.extent_of_packed? hl⟩

theorem packed_vector (name : String) (type : ElementType) (n : Nat) :
    (zeros name type (.vector n)).Packed type ⟨n, 1, 1⟩ :=
  ⟨compact_zeros (Layout.dense_vector n) name type, rfl, rfl⟩

theorem size_of_alike_vector {name : String} {type : ElementType} {n : Nat}
    (h : (zeros name type (.vector n)).Alike t) : t.codes.size = n := by
  rw [h.size_eq, size_zeros, Layout.span_vector]

end Tensor

/-! ### Filled matrices -/

/-- What a matrix is made from: the order that it is packed in, and how it is filled. -/
structure Recipe where
  name : String
  type : ElementType
  order : MatrixOrder
  extent : Extent
  fill : Fill
  seed : UInt64

namespace Recipe

variable {r : Recipe} {t : Tensor}

/-- The matrix that starts with a one, if the number of its bytes is addressable. -/
def tensor (r : Recipe) : Except Failure Tensor := do
  let t ← Tensor.packed r.name r.type r.order r.extent
  return (t.fillFrom r.fill r.seed).withLeadingOne

theorem exists_of_eq_ok (h : r.tensor = .ok t) : ∃ u,
    Tensor.packed r.name r.type r.order r.extent = .ok u ∧
      t = (u.fillFrom r.fill r.seed).withLeadingOne := by
  obtain ⟨u, hu, ht⟩ := exists_of_bind_eq_ok h
  exact ⟨u, hu, (Except.ok.inj ht).symm⟩

theorem packed_of_eq_ok (h : r.tensor = .ok t) : t.Packed r.type r.extent := by
  obtain ⟨u, hu, rfl⟩ := exists_of_eq_ok h
  exact ((Tensor.packed_of_eq_ok hu).of_alike (Tensor.alike_fillFrom u _ _)).of_alike
    (Tensor.alike_withLeadingOne _)

end Recipe

/-! ### The entries of a plan -/

namespace Config

variable {config : Config} {p : Problem} {t : Tensor} {placement : Placement} {x y : Float}

/-- What the left operand is made from. -/
def leftRecipe (config : Config) (p : Problem) : Recipe :=
  ⟨"A", config.typeA, config.orderA, p.leftExtent, config.fillA, config.seedAt 2022⟩

/-- What the right operand is made from. -/
def rightRecipe (config : Config) (p : Problem) : Recipe :=
  ⟨"B", config.typeB, config.orderB, p.rightExtent, config.fillB, config.seedAt 2021⟩

/-- What the summand is made from. -/
def addendRecipe (config : Config) (p : Problem) : Recipe :=
  ⟨"C", config.typeC, config.orderC, p.outputExtent, config.fillC, config.seedAt 2020⟩

theorem left_eq (config : Config) (p : Problem) :
    config.left p = (config.leftRecipe p).tensor := rfl

theorem right_eq (config : Config) (p : Problem) :
    config.right p = (config.rightRecipe p).tensor := rfl

theorem addend_eq (config : Config) (p : Problem) :
    config.addend p = (config.addendRecipe p).tensor := rfl

theorem packed_auxInput (h : config.auxInput p = .ok t) :
    t.Packed config.typeAux p.outputExtent := by
  obtain ⟨u, hu, ht⟩ := exists_of_bind_eq_ok h
  cases ht
  exact (Tensor.packed_of_eq_ok hu).of_alike (Tensor.alike_fillFrom u _ _)

/-- Storage of a column is granted just where its bytes are addressable. -/
theorem biasStorage_eq_ok_iff {name : String} : config.biasStorage p name = .ok () ↔
    p.m * config.typeBias.size < AddressSpace.limit := by
  unfold biasStorage AddressSpace.mul? AddressSpace.check
  split_ifs with h <;> simp [h]

theorem biasInput_eq_ok (h : config.biasInput p = .ok t) :
    p.m * config.typeBias.size < AddressSpace.limit ∧ t = config.biasTensor p := by
  obtain ⟨_, hstorage, ht⟩ := exists_of_bind_eq_ok h
  exact ⟨biasStorage_eq_ok_iff.mp hstorage, (Except.ok.inj ht).symm⟩

theorem biasOutput_eq_ok (h : config.biasOutput p = .ok t) :
    p.m * config.typeBias.size < AddressSpace.limit ∧ t = config.gradientTensor p := by
  obtain ⟨_, hstorage, ht⟩ := exists_of_bind_eq_ok h
  exact ⟨biasStorage_eq_ok_iff.mp hstorage, (Except.ok.inj ht).symm⟩

theorem length?_of_scalarCount {n : Nat} (h : config.scalarCount p = .ok n) :
    config.broadcast.length? p = some n := by
  unfold scalarCount at h
  split at h
  · next m hm =>
    cases h
    exact (Option.filter_eq_some_iff.mp hm).1
  · cases h

/-- The bytes of alpha and beta are addressable. -/
theorem scalarCount_bytes_lt {n : Nat} (h : config.scalarCount p = .ok n) :
    n * config.typeScalar.size < AddressSpace.limit := by
  unfold scalarCount at h
  split at h
  · next m hm =>
    cases h
    obtain ⟨bytes, hbytes⟩ := Option.isSome_iff_exists.mp (Option.filter_eq_some_iff.mp hm).2
    exact (AddressSpace.mul?_eq_some_iff.mp hbytes).1
  · cases h

/-- How many numbers alpha and beta are is addressable. -/
theorem scalarCount_lt {n : Nat} (h : config.scalarCount p = .ok n) : n < AddressSpace.limit :=
  (Nat.le_mul_of_pos_right n config.typeScalar.size_pos).trans_lt (scalarCount_bytes_lt h)

theorem alike_alphaTensor (h : config.alphaTensor p x = .ok t) :
    ∃ n, config.scalarCount p = .ok n ∧
      (Tensor.zeros "alpha" config.typeScalar (.vector n)).Alike t := by
  obtain ⟨n, hn, ht⟩ := exists_of_bind_eq_ok h
  refine ⟨n, hn, ?_⟩
  dsimp only at ht
  split_ifs at ht
  · cases ht
    exact Tensor.alike_fillFrom _ _ _
  · cases ht
    exact Tensor.alike_fill _ x

theorem alike_betaTensor (h : config.betaTensor p x = .ok t) :
    ∃ n, config.scalarCount p = .ok n ∧
      (Tensor.zeros "beta" config.typeScalar (.vector n)).Alike t := by
  obtain ⟨n, hn, ht⟩ := exists_of_bind_eq_ok h
  refine ⟨n, hn, ?_⟩
  dsimp only at ht
  split_ifs at ht
  · cases ht
    exact .refl _
  · cases ht
    exact Tensor.alike_fillFrom _ _ _
  · cases ht
    exact Tensor.alike_ramp _ x
  · cases ht
    exact Tensor.alike_fill _ x

/-- The type of an output. -/
def outputType (config : Config) : Channel → ElementType
  | .d => config.typeD
  | .biasGradient => config.typeBias
  | .aux => config.typeAux
  | .absMaxD | .absMaxAux => config.typeAbsMax

/-- **The outputs are laid out without gaps and without overlaps**, and are in device memory. -/
theorem exists_layout_of_outputPlan {channel : Channel} {entry : Entry}
    (h : (config.outputPlan p).get? channel = some entry) (hok : entry () = .ok placement) :
    ∃ name layout, (Tensor.zeros name (config.outputType channel) layout).Alike placement.tensor ∧
      layout.Dense ∧ layout.Separates ∧ layout.extent = channel.extent p ∧
      placement.onDevice = true := by
  have hpacked : ∀ {name type order t}, Tensor.packed name type order p.outputExtent = .ok t →
      ∃ layout, (Tensor.zeros name type layout).Alike t ∧ layout.Dense ∧ layout.Separates ∧
        layout.extent = p.outputExtent := by
    intro name type order t ht
    obtain ⟨layout, hl, rfl⟩ := Tensor.packed_eq_ok ht
    exact ⟨layout, .refl _, MatrixOrder.dense_of_packed? hl, MatrixOrder.separates_of_packed? hl,
      MatrixOrder.extent_of_packed? hl⟩
  cases channel with
  | d =>
    cases h
    obtain ⟨t, ht, rfl⟩ := exists_of_placement_eq_ok hok
    obtain ⟨layout, halike, hdense, hseparates, hextent⟩ := hpacked ht
    exact ⟨_, layout, halike, hdense, hseparates, hextent, rfl⟩
  | absMaxD =>
    simp only [outputPlan, Outputs.get?, Option.ite_none_right_eq_some] at h
    obtain ⟨-, h⟩ := h
    cases h
    cases hok
    exact ⟨_, _, Tensor.alike_fill _ _, Layout.dense_vector 1, Layout.separates_vector 1, rfl, rfl⟩
  | biasGradient =>
    simp only [outputPlan, Outputs.get?, Option.ite_none_right_eq_some] at h
    obtain ⟨-, h⟩ := h
    cases h
    obtain ⟨t, ht, rfl⟩ := exists_of_placement_eq_ok hok
    obtain ⟨-, rfl⟩ := biasOutput_eq_ok ht
    exact ⟨_, _, .refl _, Layout.dense_vector p.m, Layout.separates_vector p.m, rfl, rfl⟩
  | aux =>
    simp only [outputPlan, Outputs.get?, Option.ite_none_right_eq_some] at h
    obtain ⟨-, h⟩ := h
    cases h
    obtain ⟨t, ht, rfl⟩ := exists_of_placement_eq_ok hok
    obtain ⟨layout, halike, hdense, hseparates, hextent⟩ := hpacked ht
    exact ⟨_, layout, halike, hdense, hseparates, hextent, rfl⟩
  | absMaxAux =>
    simp only [outputPlan, Outputs.get?, Option.ite_none_right_eq_some] at h
    obtain ⟨-, h⟩ := h
    cases h
    cases hok
    exact ⟨_, _, Tensor.alike_fill _ _, Layout.dense_vector 1, Layout.separates_vector 1, rfl, rfl⟩

end Config

/-! ### Materialized operands -/

namespace Materialized

variable {config : Config} {p : Problem} {x y : Float} {device placed : Device} {case : Case}
  {channel : Channel} {staged : Staged}

/-- The outputs of a case are laid out by the plan. -/
theorem exists_layout (h : Materialized config p x y device case placed)
    (hs : case.operands.outputs.get? channel = some staged) :
    ∃ name layout, (Tensor.zeros name (config.outputType channel) layout).Alike staged.host ∧
      layout.Dense ∧ layout.Separates ∧ layout.extent = channel.extent p ∧
      staged.buffer.isSome = true := by
  have hrel := h.meets.outputs.get? channel
  rw [hs] at hrel
  obtain ⟨entry, hentry, placement, hok, hhost, hbuffer⟩ := exists_of_rel_of_some hrel
  rw [hhost, hbuffer]
  exact Config.exists_layout_of_outputPlan hentry hok

/-- The outputs of a case are compact and have buffers that fit. -/
theorem output (h : Materialized config p x y device case placed)
    (hs : case.operands.outputs.get? channel = some staged) :
    staged.host.Compact ∧ staged.buffer.isSome = true ∧ staged.Fits := by
  obtain ⟨name, layout, halike, hdense, -, -, hbuffer⟩ := h.exists_layout hs
  exact ⟨(Tensor.compact_zeros hdense _ _).of_alike halike, hbuffer,
    h.holds.fits staged (Operands.mem_toList_of_output hs)⟩

theorem output_type (h : Materialized config p x y device case placed)
    (hs : case.operands.outputs.get? channel = some staged) :
    staged.host.type = config.outputType channel := by
  obtain ⟨name, layout, halike, -⟩ := h.exists_layout hs
  exact halike.type_eq

/-- The left operand is the one that is laid out, and in device memory. -/
theorem left_planned (h : Materialized config p x y device case placed) :
    (config.leftRecipe p).tensor = .ok case.operands.a.host ∧
      case.operands.a.buffer.isSome = true := by
  obtain ⟨placement, hok, hhost, hbuffer⟩ := h.meets.a
  obtain ⟨t, ht, hrest⟩ := exists_of_bind_eq_ok hok
  obtain ⟨u, hu, hplacement⟩ := exists_of_bind_eq_ok hrest
  cases hplacement
  exact ⟨hhost ▸ (config.left_eq p).symm.trans ht, hbuffer⟩

theorem right_planned (h : Materialized config p x y device case placed) :
    (config.rightRecipe p).tensor = .ok case.operands.b.host ∧
      case.operands.b.buffer.isSome = true := by
  obtain ⟨placement, hok, hhost, hbuffer⟩ := h.meets.b
  obtain ⟨t, ht, rfl⟩ := exists_of_placement_eq_ok hok
  exact ⟨hhost ▸ (config.right_eq p).symm.trans ht, hbuffer⟩

theorem addend_planned (h : Materialized config p x y device case placed) :
    (config.addendRecipe p).tensor = .ok case.operands.c.host ∧
      case.operands.c.buffer.isSome = true := by
  obtain ⟨placement, hok, hhost, hbuffer⟩ := h.meets.c
  obtain ⟨t, ht, hrest⟩ := exists_of_bind_eq_ok hok
  obtain ⟨u, hu, hplacement⟩ := exists_of_bind_eq_ok hrest
  cases hplacement
  exact ⟨hhost ▸ (config.addend_eq p).symm.trans ht, hbuffer⟩

/-- The left operand is packed and in device memory. -/
theorem left (h : Materialized config p x y device case placed) :
    case.operands.a.host.Packed config.typeA p.leftExtent ∧
      case.operands.a.buffer.isSome = true :=
  ⟨Recipe.packed_of_eq_ok h.left_planned.1, h.left_planned.2⟩

theorem right (h : Materialized config p x y device case placed) :
    case.operands.b.host.Packed config.typeB p.rightExtent ∧
      case.operands.b.buffer.isSome = true :=
  ⟨Recipe.packed_of_eq_ok h.right_planned.1, h.right_planned.2⟩

theorem addend (h : Materialized config p x y device case placed) :
    case.operands.c.host.Packed config.typeC p.outputExtent ∧
      case.operands.c.buffer.isSome = true :=
  ⟨Recipe.packed_of_eq_ok h.addend_planned.1, h.addend_planned.2⟩

theorem product (h : Materialized config p x y device case placed) :
    case.operands.outputs.d.host.Packed config.typeD p.outputExtent := by
  obtain ⟨placement, hok, hhost, -⟩ := h.meets.outputs.d
  obtain ⟨t, ht, rfl⟩ := exists_of_placement_eq_ok hok
  exact hhost ▸ Tensor.packed_of_eq_ok ht

theorem alpha (h : Materialized config p x y device case placed) :
    ∃ n, config.scalarCount p = .ok n ∧
      (Tensor.zeros "alpha" config.typeScalar (.vector n)).Alike case.operands.alpha.host ∧
      case.operands.alpha.buffer.isSome = config.broadcast.onDevice := by
  obtain ⟨placement, hok, hhost, hbuffer⟩ := h.meets.alpha
  obtain ⟨t, ht, rfl⟩ := exists_of_placement_eq_ok hok
  obtain ⟨n, hn, halike⟩ := Config.alike_alphaTensor ht
  exact ⟨n, hn, hhost ▸ halike, hbuffer⟩

theorem beta (h : Materialized config p x y device case placed) :
    ∃ n, config.scalarCount p = .ok n ∧
      (Tensor.zeros "beta" config.typeScalar (.vector n)).Alike case.operands.beta.host ∧
      case.operands.beta.buffer.isSome = config.broadcast.onDevice := by
  obtain ⟨placement, hok, hhost, hbuffer⟩ := h.meets.beta
  obtain ⟨t, ht, rfl⟩ := exists_of_placement_eq_ok hok
  obtain ⟨n, hn, halike⟩ := Config.alike_betaTensor ht
  exact ⟨n, hn, hhost ▸ halike, hbuffer⟩

/-- There are scale factors only where the epilogue has them, each from a seed of its own. -/
theorem factor_host (h : Materialized config p x y device case placed) {s : Scales Staged}
    (hs : case.operands.scale = some s) : config.capabilities.scaleFactors = true ∧
      ∀ staged ∈ s.toList, ∃ name offset, staged.host = config.scaleFactor name offset := by
  have hone : ∀ name offset onDevice staged,
      Staged.Meets (fun _ => .ok ⟨config.scaleFactor name offset, onDevice⟩) staged →
      ∃ name offset, staged.host = config.scaleFactor name offset := by
    rintro name offset onDevice staged ⟨_, ⟨⟩, hhost, -⟩
    exact ⟨name, offset, hhost⟩
  have hrel := h.meets.scale
  rw [hs] at hrel
  obtain ⟨plan, hplan, hrel⟩ := exists_of_rel_of_some hrel
  simp only [Config.plan, Option.ite_none_right_eq_some] at hplan
  obtain ⟨hactive, hplan⟩ := hplan
  cases hplan
  refine ⟨hactive, fun staged hmem => ?_⟩
  simp only [Scales.toList, List.mem_append, List.mem_cons, List.not_mem_nil, or_false,
    Option.mem_toList] at hmem
  rcases hmem with (rfl | rfl | rfl | rfl) | haux
  · exact hone _ _ _ _ hrel.a
  · exact hone _ _ _ _ hrel.b
  · exact hone _ _ _ _ hrel.c
  · exact hone _ _ _ _ hrel.d
  · have hrel' := hrel.aux
    rw [haux] at hrel'
    obtain ⟨entry, hentry, hmeets⟩ := exists_of_rel_of_some hrel'
    simp only [Config.scalePlan, Option.ite_none_right_eq_some] at hentry
    obtain ⟨-, hentry⟩ := hentry
    cases hentry
    exact hone _ _ _ _ hmeets

/-- Each of them is a single element. -/
theorem factor_alike (h : Materialized config p x y device case placed) {s : Scales Staged}
    (hs : case.operands.scale = some s) : config.capabilities.scaleFactors = true ∧
      ∀ staged ∈ s.toList, ∃ name,
        (Tensor.zeros name config.typeScalar .scalar).Alike staged.host := by
  refine ⟨(h.factor_host hs).1, fun staged hmem => ?_⟩
  obtain ⟨name, offset, hhost⟩ := (h.factor_host hs).2 staged hmem
  exact ⟨name, hhost ▸ Tensor.alike_fillFrom _ _ _⟩

theorem factor (h : Materialized config p x y device case placed) {s : Scales Staged}
    (hs : case.operands.scale = some s) {staged : Staged} (hmem : staged ∈ s.toList) :
    staged.host.Compact ∧ staged.host.codes.size = 1 := by
  obtain ⟨name, halike⟩ := (h.factor_alike hs).2 staged hmem
  exact ⟨(Tensor.packed_vector _ _ 1).compact.of_alike halike, halike.size_eq⟩

/-- The bias is the one that is drawn, and in device memory. -/
theorem bias_planned (h : Materialized config p x y device case placed)
    (hs : case.operands.bias = some staged) :
    config.capabilities.rowBias = true ∧ staged.host = config.biasTensor p ∧
      staged.buffer.isSome = true := by
  have hrel := h.meets.bias
  rw [hs] at hrel
  obtain ⟨entry, hentry, placement, hok, hhost, hbuffer⟩ := exists_of_rel_of_some hrel
  simp only [Config.plan, Option.ite_none_right_eq_some] at hentry
  obtain ⟨hactive, hentry⟩ := hentry
  cases hentry
  obtain ⟨t, ht, rfl⟩ := exists_of_placement_eq_ok hok
  exact ⟨hactive, hhost.trans (Config.biasInput_eq_ok ht).2, hbuffer⟩

theorem bias_packed (h : Materialized config p x y device case placed)
    (hs : case.operands.bias = some staged) :
    staged.host.Packed config.typeBias ⟨p.m, 1, 1⟩ := by
  rw [(h.bias_planned hs).2.1]
  exact (Tensor.packed_vector _ _ p.m).of_alike (Tensor.alike_fillFrom _ _ _)

theorem bias (h : Materialized config p x y device case placed)
    (hs : case.operands.bias = some staged) :
    staged.host.Compact ∧ staged.buffer.isSome = true :=
  ⟨(h.bias_packed hs).compact, (h.bias_planned hs).2.2⟩

theorem isSome_bias (h : Materialized config p x y device case placed) :
    case.operands.bias.isSome = config.capabilities.rowBias := by
  rw [isSome_of_rel h.meets.bias]
  show (if config.capabilities.rowBias then _ else none).isSome = _
  cases config.capabilities.rowBias <;> rfl

/-- The auxiliary input is the one that is drawn, and in device memory. -/
theorem auxIn_planned (h : Materialized config p x y device case placed)
    (hs : case.operands.auxIn = some staged) :
    config.capabilities.auxIn = true ∧ config.auxInput p = .ok staged.host ∧
      staged.buffer.isSome = true := by
  have hrel := h.meets.auxIn
  rw [hs] at hrel
  obtain ⟨entry, hentry, placement, hok, hhost, hbuffer⟩ := exists_of_rel_of_some hrel
  simp only [Config.plan, Option.ite_none_right_eq_some] at hentry
  obtain ⟨hactive, hentry⟩ := hentry
  cases hentry
  obtain ⟨t, ht, rfl⟩ := exists_of_placement_eq_ok hok
  exact ⟨hactive, hhost ▸ ht, hbuffer⟩

theorem auxIn_packed (h : Materialized config p x y device case placed)
    (hs : case.operands.auxIn = some staged) :
    staged.host.Packed config.typeAux p.outputExtent :=
  Config.packed_auxInput (h.auxIn_planned hs).2.1

theorem auxIn (h : Materialized config p x y device case placed)
    (hs : case.operands.auxIn = some staged) :
    staged.host.Compact ∧ staged.buffer.isSome = true :=
  ⟨(h.auxIn_packed hs).compact, (h.auxIn_planned hs).2.2⟩

theorem isSome_auxIn (h : Materialized config p x y device case placed) :
    case.operands.auxIn.isSome = config.capabilities.auxIn := by
  rw [isSome_of_rel h.meets.auxIn]
  show (if config.capabilities.auxIn then _ else none).isSome = _
  cases config.capabilities.auxIn <;> rfl

/-- The gradient starts from zeros. -/
theorem biasGradient (h : Materialized config p x y device case placed) {staged : Staged}
    (hs : case.operands.outputs.biasGradient = some staged) :
    staged.host = config.gradientTensor p := by
  have hrel := h.meets.outputs.biasGradient
  rw [hs] at hrel
  obtain ⟨entry, hentry, placement, hok, hhost, -⟩ := exists_of_rel_of_some hrel
  simp only [Config.plan, Config.outputPlan, Option.ite_none_right_eq_some] at hentry
  obtain ⟨-, hentry⟩ := hentry
  cases hentry
  obtain ⟨t, ht, rfl⟩ := exists_of_placement_eq_ok hok
  exact hhost.trans (Config.biasOutput_eq_ok ht).2

theorem reference_eq (h : Materialized config p x y device case placed) :
    case.reference = Config.referenceOutputs case.operands := by
  rw [h.case_eq]

/-- The reference starts from tensors alike the outputs. -/
theorem alike_reference (h : Materialized config p x y device case placed)
    (hs : case.operands.outputs.get? channel = some staged) :
    ∃ t, case.reference.get? channel = some t ∧ staged.host.Alike t := by
  have hcompact := (h.output hs).1
  have hblank : staged.host.Alike
      (.zeros ("reference " ++ staged.host.name) staged.host.type staged.host.layout) :=
    ⟨rfl, rfl, by rw [Tensor.size_zeros, hcompact.size_eq]⟩
  rw [h.reference_eq]
  unfold Config.referenceOutputs
  by_cases hd : channel = .d
  · subst hd
    cases hs
    exact ⟨_, rfl, hblank.trans (Tensor.alike_copyFrom _ _)⟩
  · rw [Outputs.get?_set_of_ne (Ne.symm hd), Outputs.get?_map, hs]
    exact ⟨_, rfl, hblank⟩

end Materialized

end FusedGemm
