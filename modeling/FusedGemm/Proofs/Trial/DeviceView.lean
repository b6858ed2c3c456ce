import FusedGemm.Proofs.Trial.EmptyScalars
import FusedGemm.Proofs.Trial.Emulating
import FusedGemm.Proofs.Trial.Packing
import FusedGemm.Proofs.Trial.Verdict

/-!
# What a kernel is told

The arguments of a launch describe device memory by pointers, types and layouts.  Of a case that has
been set up they tell the truth: where a layout is not empty there is an allocation of its size with
the bytes of the operand on the host (`Staged.Told`), no two arguments share one, and what a kernel
reads for alpha, beta and the scale factors is in bounds and what the reference reads
(`Case.arguments_tell`).
-/

namespace FusedGemm

/-- A dense layout has a coordinate for each element. -/
theorem Layout.span_le_count {layout : Layout} (h : layout.Dense) :
    layout.span ≤ layout.extent.count := by
  have hsub : List.range layout.span ⊆ layout.extent.coords.map layout.offset := by
    intro i hi
    obtain ⟨c, hc, hoffset⟩ := h i (List.mem_range.mp hi)
    exact List.mem_map.mpr ⟨c, Extent.mem_coords.mpr hc, hoffset⟩
  have hle := (List.nodup_range.subperm hsub).length_le
  rwa [List.length_range, List.length_map, Extent.length_coords] at hle

namespace Config

variable {config : Config} {p : Problem}

/-- With scale factors the scalars are real. -/
theorem Valid.real_scalars (h : config.Valid) (hscale : config.capabilities.scaleFactors = true) :
    config.typeScalar.isComplex = false := by
  have hfusion : config.fusion.scaleFactors = true := hscale
  exact h.real (by simp [Fusion.declaresFeature, hfusion]) (by simp)

end Config

/-! ### Elements in device memory -/

namespace ElementType

theorem decode_of_real {t : ElementType} (h : t.isComplex = false) (code : Code t) :
    t.decode code = .ofReal (t.decode code).re := by
  unfold decode
  rw [h]
  rfl

end ElementType

namespace Device

variable {device : Device}

/-- The element at a storage index of the allocation at an argument, if it is in bounds. -/
def element? (device : Device) (arg : TensorArgument) (i : Nat) : Option ComplexFloat :=
  (device.contents? arg.pointer).bind fun bytes =>
    if (i + 1) * arg.type.size ≤ bytes.length then
      let code := (bytes.drop (i * arg.type.size)).take arg.type.size
      some (arg.type.decode (arg.type.ofCodeBytes code))
    else none

/-- The number that a scalar has for a kernel at an output coordinate. -/
def scalar? (device : Device) (arg : ScalarArgument) (c : Coord) : Option ComplexFloat :=
  match arg.vector with
  | some vector => device.element? vector (vector.layout.offset c)
  | none => some (.ofReal arg.value)

theorem element?_of_contents? {arg : TensorArgument} {t : Tensor} (htype : arg.type = t.type)
    (hc : device.contents? arg.pointer = some t.bytes) {i : Nat} (hi : i < t.codes.size) :
    device.element? arg i = some (t.get i) := by
  have hroom : (i + 1) * t.type.size ≤ t.bytes.length := by
    rw [Tensor.length_bytes]
    exact Nat.mul_le_mul_right _ hi
  have hcode : (t.bytes.drop (i * t.type.size)).take t.type.size =
      t.type.codeBytes t.codes[i] := by
    unfold Tensor.bytes
    exact t.type.take_drop_flatMap _ (by simpa using hi)
  have hget : t.codes.getD i 0 = t.codes[i] := by simp [Array.getD, hi]
  unfold element?
  rw [hc, Option.bind_some, htype, if_pos hroom, Tensor.get, hget]
  dsimp only
  rw [hcode, ElementType.ofCodeBytes_codeBytes]

end Device

/-- A kernel reads the given factors at an output coordinate, the one of `Aux` if it is told of
one. -/
structure Device.ReadsFactors (device : Device) (coord : Coord) (args : Scales ScalarArgument)
    (factors : ScaleFactors) : Prop where
  a : device.scalar? args.a coord = some (.ofReal factors.a)
  b : device.scalar? args.b coord = some (.ofReal factors.b)
  c : device.scalar? args.c coord = some (.ofReal factors.c)
  d : device.scalar? args.d coord = some (.ofReal factors.d)
  aux : ∀ arg ∈ args.aux, device.scalar? arg coord = some (.ofReal factors.aux)

/-! ### Arguments of operands -/

/-- A function of each of the factors. -/
def Scales.map {α β : Type} (f : α → β) (s : Scales α) : Scales β :=
  ⟨f s.a, f s.b, f s.c, f s.d, s.aux.map f⟩

/-- The tensors that a launch names; a scalar may come without one. -/
def Launch.tensors (launch : Launch) : Operands (Option TensorArgument) where
  a := some launch.a
  b := some launch.b
  c := some launch.c
  alpha := launch.alpha.vector
  beta := launch.beta.vector
  scale := launch.scale.map (Scales.map ScalarArgument.vector)
  bias := launch.bias.map some
  auxIn := launch.auxIn.map some
  outputs := launch.outputs.map some

/-- What a kernel is told of an operand is so: there is an argument if the operand is in device
memory, and unless its layout is empty it points to an allocation of the size of the layout that
holds the bytes of the host copy. -/
structure Staged.Told (device : Device) (arg? : Option TensorArgument) (staged : Staged) :
    Prop where
  isSome_eq : arg?.isSome = staged.buffer.isSome
  pointer_eq : ∀ arg ∈ arg?, arg.pointer = staged.pointer
  type_eq : ∀ arg ∈ arg?, arg.type = staged.host.type
  pointer_ne_null : ∀ arg ∈ arg?, 0 < arg.layout.extent.count → arg.pointer ≠ .null
  contents_eq : ∀ arg ∈ arg?, 0 < arg.layout.extent.count →
    device.contents? arg.pointer = some staged.host.bytes
  length_eq : ∀ arg ∈ arg?, 0 < arg.layout.extent.count →
    ∃ n, arg.layout.span? = some n ∧ staged.host.bytes.length = n * arg.type.size

namespace Staged

variable {device : Device} {staged : Staged}

/-- A served operand with elements is in an allocation. -/
theorem Served.contents_of_pos (h : Served device staged) (hb : staged.buffer.isSome = true)
    (hpos : 0 < staged.host.codes.size) : staged.pointer ≠ .null ∧
      device.contents? staged.pointer = some staged.host.bytes := by
  have hne : staged.pointer ≠ .null := by
    rw [Ne, h.fits.pointer_eq_null_iff hb]
    omega
  exact ⟨hne, h.contents hne⟩

/-- A served operand is told of with any layout of its size. -/
theorem Served.told_view (h : Served device staged) {view : Layout}
    (hspan : 0 < view.extent.count → view.span = staged.host.codes.size)
    (hsize : staged.host.codes.size < AddressSpace.limit) :
    Told device (staged.buffer.map fun _ => ⟨staged.pointer, staged.host.type, view⟩) staged := by
  have hpos : 0 < view.extent.count → 0 < staged.host.codes.size := by
    intro hcount
    rw [← hspan hcount]
    refine Nat.pos_of_ne_zero fun hzero => ?_
    rw [Layout.span_eq_zero_iff] at hzero
    omega
  cases hbuffer : staged.buffer with
  | none => exact ⟨by rw [hbuffer]; rfl, by simp, by simp, by simp, by simp, by simp⟩
  | some buffer =>
    have hb : staged.buffer.isSome = true := Option.isSome_of_eq_some hbuffer
    refine ⟨by rw [hbuffer]; rfl, ?_, ?_, ?_, ?_, ?_⟩
    · rintro _ ⟨⟩
      rfl
    · rintro _ ⟨⟩
      rfl
    · rintro _ ⟨⟩ hcount
      exact (h.contents_of_pos hb (hpos hcount)).1
    · rintro _ ⟨⟩ hcount
      exact (h.contents_of_pos hb (hpos hcount)).2
    · rintro _ ⟨⟩ hcount
      have hview := hspan hcount
      refine ⟨view.span, Layout.span?_of_lt (hview ▸ hsize), ?_⟩
      rw [Tensor.length_bytes, Tensor.byteSize, hview]

/-- A kernel reads of a served operand what is there on the host. -/
theorem Served.element?_view (h : Served device staged) (hb : staged.buffer.isSome = true)
    {view : Layout} (hspan : view.span = staged.host.codes.size) {c : Coord}
    (hc : c ∈ view.extent) :
    device.element? ⟨staged.pointer, staged.host.type, view⟩ (view.offset c) =
      some (staged.host.get (view.offset c)) := by
  have hlt : view.offset c < staged.host.codes.size := hspan ▸ Layout.offset_lt_span hc
  have hcontents := (h.contents_of_pos hb (Nat.zero_lt_of_lt hlt)).2
  exact Device.element?_of_contents? rfl hcontents hlt

/-- A served operand is told of as it is. -/
theorem Served.told (h : Served device staged) (hb : staged.buffer.isSome = true) {e : Extent}
    (he : staged.host.extent = e) (hcount : e.count < AddressSpace.limit) :
    Told device (some staged.argument) staged := by
  have hsize : staged.host.codes.size < AddressSpace.limit := by
    have hle := Layout.span_le_count h.compact.dense
    have hextent : staged.host.layout.extent = e := he
    rw [hextent] at hle
    rw [h.compact.size_eq]
    omega
  obtain ⟨buffer, hbuffer⟩ := Option.isSome_iff_exists.mp hb
  have htold := h.told_view (fun _ => h.compact.size_eq.symm) hsize
  rw [hbuffer] at htold
  exact htold

theorem told_option (x : Option Staged) (h : ∀ staged, x = some staged →
    Told device (some staged.argument) staged) :
    Option.Rel (Told device) ((x.map argument).map some) x := by
  cases x with
  | none => exact .none
  | some staged => exact .some (h staged rfl)

end Staged

/-! ### Lists of operands -/

section Lists
variable {α β : Type} {R : α → β → Prop}

theorem forall₂_toList_of_rel {x : Option α} {y : Option β} (h : Option.Rel R x y) :
    List.Forall₂ R x.toList y.toList := by
  cases h with
  | none => exact .nil
  | some hR => exact .cons hR .nil

theorem Scales.Related.map_of_mem {γ : Type} {S : γ → α → Prop} {f : β → γ} {s : Scales α}
    {s' : Scales β} (h : Scales.Related R s s')
    (hS : ∀ x ∈ s.toList, ∀ y, R x y → S (f y) x) : Scales.Related S (s'.map f) s where
  a := hS _ (by simp [toList]) _ h.a
  b := hS _ (by simp [toList]) _ h.b
  c := hS _ (by simp [toList]) _ h.c
  d := hS _ (by simp [toList]) _ h.d
  aux := by
    have haux := h.aux
    have hmem : ∀ x ∈ s.aux, x ∈ s.toList := fun x hx => by simp_all [toList]
    unfold map
    dsimp only
    generalize s.aux = x at haux hmem
    generalize s'.aux = y at haux
    cases haux with
    | none => exact .none
    | some hR => exact .some (hS _ (hmem _ rfl) _ hR)

theorem Scales.Related.forall₂_toList {s : Scales α} {s' : Scales β} (h : Scales.Related R s s') :
    List.Forall₂ R s.toList s'.toList :=
  List.rel_append (.cons h.a (.cons h.b (.cons h.c (.cons h.d .nil))))
    (forall₂_toList_of_rel h.aux)

theorem Operands.Related.forall₂_toList {o : Operands α} {o' : Operands β}
    (h : Operands.Related R o o') : List.Forall₂ R o.toList o'.toList := by
  have hscale : List.Forall₂ R ((o.scale.map Scales.toList).getD [])
      ((o'.scale.map Scales.toList).getD []) := by
    have hrel := h.scale
    cases hs : o.scale with
    | none =>
      rw [hs] at hrel
      cases hs' : o'.scale with
      | none => exact .nil
      | some s' =>
        rw [hs'] at hrel
        cases hrel
    | some s =>
      rw [hs] at hrel
      obtain ⟨s', hs', hR⟩ := exists_of_rel_some hrel
      rw [hs']
      exact hR.forall₂_toList
  have hfirst : List.Forall₂ R [o.a, o.b, o.c, o.outputs.d, o.alpha, o.beta]
      [o'.a, o'.b, o'.c, o'.outputs.d, o'.alpha, o'.beta] :=
    .cons h.a (.cons h.b (.cons h.c (.cons h.outputs.d (.cons h.alpha (.cons h.beta .nil)))))
  have hbias := List.rel_append (List.rel_append hfirst hscale) (forall₂_toList_of_rel h.bias)
  have haux := List.rel_append (List.rel_append (List.rel_append hbias
    (forall₂_toList_of_rel h.outputs.biasGradient)) (forall₂_toList_of_rel h.auxIn))
    (forall₂_toList_of_rel h.outputs.aux)
  exact List.rel_append (List.rel_append haux (forall₂_toList_of_rel h.outputs.absMaxD))
    (forall₂_toList_of_rel h.outputs.absMaxAux)

/-- What holds of two entries one after the other in one list holds of the related ones. -/
theorem pairwise_of_forall₂ {S : β → β → Prop} {T : α → α → Prop} {l : List α} {l' : List β}
    (h : List.Forall₂ R l l') (hS : l'.Pairwise S)
    (hT : ∀ a b a' b', R a b → R a' b' → S b b' → T a a') : l.Pairwise T := by
  induction h with
  | nil => exact .nil
  | @cons a b l l' hab hl ih =>
    obtain ⟨hb, hrest⟩ := List.pairwise_cons.mp hS
    refine List.pairwise_cons.mpr ⟨fun a' ha' => ?_, ih hrest⟩
    obtain ⟨i, hi, rfl⟩ := List.getElem_of_mem ha'
    have hlength := hl.length_eq
    have hi' : i < l'.length := by omega
    exact hT a b l[i] l'[i] hab (hl.get hi hi') (hb l'[i] (List.getElem_mem hi'))

end Lists

/-! ### The arguments of a case -/

theorem Recipe.count_lt {r : Recipe} {t : Tensor} (h : r.tensor = .ok t) :
    r.extent.count < AddressSpace.limit := by
  obtain ⟨u, hu, -⟩ := exists_of_eq_ok h
  exact Tensor.count_lt_of_bytes_lt (Tensor.bytes_lt_of_packed_eq_ok hu)

namespace Materialized

variable {config : Config} {p : Problem} {x y : Float} {before placed : Device} {case : Case}
  {launch : Launch}

theorem count_left_lt (h : Materialized config p x y before case placed) :
    p.leftExtent.count < AddressSpace.limit :=
  Recipe.count_lt h.left_planned.1

theorem count_right_lt (h : Materialized config p x y before case placed) :
    p.rightExtent.count < AddressSpace.limit :=
  Recipe.count_lt h.right_planned.1

theorem count_output_lt (h : Materialized config p x y before case placed) :
    p.outputExtent.count < AddressSpace.limit :=
  Recipe.count_lt h.addend_planned.1

/-- With columns there are no more rows than elements of the output. -/
theorem count_rows_lt (h : Materialized config p x y before case placed) (hn : 0 < p.n) :
    (⟨p.m, 1, 1⟩ : Extent).count < AddressSpace.limit := by
  have hlt := h.count_output_lt
  have hle := Nat.le_mul_of_pos_right p.m (Nat.mul_pos hn p.batch_pos)
  simp only [Extent.count, Problem.outputExtent, Nat.mul_one] at hlt ⊢
  rw [Nat.mul_assoc] at hlt
  omega

theorem count_channel_lt (h : Materialized config p x y before case placed) (hn : 0 < p.n)
    (channel : Channel) : (channel.extent p).count < AddressSpace.limit := by
  cases channel with
  | d => exact h.count_output_lt
  | aux => exact h.count_output_lt
  | biasGradient => exact h.count_rows_lt hn
  | absMaxD => exact (by decide : (1 : Nat) < AddressSpace.limit)
  | absMaxAux => exact (by decide : (1 : Nat) < AddressSpace.limit)

theorem served (h : Materialized config p x y before case placed) {staged : Staged}
    (hmem : staged ∈ case.operands.toList) (hcompact : staged.host.Compact) :
    staged.Served placed := h.resident.served staged hmem hcompact

/-! #### Scalars -/

theorem tell_scalar (h : Materialized config p x y before case placed) {staged : Staged}
    {arg : ScalarArgument} (hmem : staged ∈ case.operands.toList) {n : Nat} {name : String}
    (hn : config.scalarCount p = .ok n)
    (halike : (Tensor.zeros name config.typeScalar (.vector n)).Alike staged.host)
    (hb : staged.buffer.isSome = config.broadcast.onDevice)
    (harg : Case.scalarArgument case.scalarView staged = .ok arg) :
    Staged.Told placed arg.vector staged ∧ ∀ c ∈ p.outputExtent,
      placed.scalar? arg c = some ((case.scalarSource staged.host).read c) := by
  have hserved := h.served hmem ((Tensor.packed_vector name _ n).compact.of_alike halike)
  have hsize : staged.host.codes.size < AddressSpace.limit := by
    rw [Tensor.size_of_alike_vector halike]
    exact Config.scalarCount_lt hn
  have honDevice : case.config.broadcast.onDevice = staged.buffer.isSome := by
    rw [hb, h.case_eq]
  have hspan : 0 < p.outputExtent.count → case.scalarView.span = staged.host.codes.size :=
    h.span_scalarView hn halike
  have hextent : case.scalarView.extent = p.outputExtent := by
    rw [h.scalarView_eq]
    rfl
  obtain rfl := Case.scalarArgument_eq_ok harg
  refine ⟨hserved.told_view (hextent ▸ hspan) hsize, fun c hc => ?_⟩
  unfold Case.scalarSource
  rw [honDevice]
  cases hbuffer : staged.buffer with
  | none => rfl
  | some buffer =>
    have hsome : staged.buffer.isSome = true := Option.isSome_of_eq_some hbuffer
    exact hserved.element?_view hsome (hspan (Extent.count_pos_of_mem hc)) (hextent ▸ hc)

theorem tell_factor (h : Materialized config p x y before case placed) {s : Scales Staged}
    (hs : case.operands.scale = some s) {staged : Staged} (hmem : staged ∈ s.toList)
    {arg : ScalarArgument} (harg : Case.scalarArgument case.factorView staged = .ok arg) :
    Staged.Told placed arg.vector staged ∧ ∀ c ∈ p.outputExtent,
      placed.scalar? arg c = some (.ofReal (Case.factorOf staged)) := by
  obtain ⟨hactive, halike⟩ := h.factor_alike hs
  obtain ⟨name, halike⟩ := halike staged hmem
  obtain ⟨hcompact, hsize⟩ := h.factor hs hmem
  have hserved := h.served (by simp [Operands.toList, hs, hmem]) hcompact
  have hextent : case.factorView.extent = p.outputExtent := by
    rw [Case.factorView, h.case_eq]
  have hspan : 0 < case.factorView.extent.count →
      case.factorView.span = staged.host.codes.size := by
    intro hcount
    rw [hsize]
    exact Layout.span_of_stride_none hcount
  have hone : staged.host.codes.size < AddressSpace.limit := by
    rw [hsize]
    decide
  obtain rfl := Case.scalarArgument_eq_ok harg
  refine ⟨hserved.told_view hspan hone, fun c hc => ?_⟩
  cases hbuffer : staged.buffer with
  | none => rfl
  | some buffer =>
    have hsome : staged.buffer.isSome = true := Option.isSome_of_eq_some hbuffer
    have hc' : c ∈ case.factorView.extent := hextent ▸ hc
    have hzero : case.factorView.offset c = 0 := by
      simp [Case.factorView, Layout.offset, Stride.none]
    have hreal : staged.host.type.isComplex = false := by
      have htype : staged.host.type = config.typeScalar := halike.type_eq
      rw [htype]
      exact h.valid.real_scalars hactive
    have helement := hserved.element?_view hsome (hspan (Extent.count_pos_of_mem hc')) hc'
    have horigin : staged.host.read .origin = staged.host.get 0 := by
      rw [Tensor.read, Layout.offset_origin]
    rw [hzero] at helement
    show placed.element? _ (case.factorView.offset c) = _
    rw [hzero, helement, Case.factorOf, horigin]
    exact congrArg some (ElementType.decode_of_real hreal _)

theorem tell_factors (h : Materialized config p x y before case placed)
    {args : Option (Scales ScalarArgument)}
    (hargs : case.operands.scale.mapM (Scales.mapM (Case.scalarArgument case.factorView)) =
      .ok args) :
    Option.Rel (Scales.Related (Staged.Told placed)) (args.map (Scales.map ScalarArgument.vector))
        case.operands.scale ∧
      ∀ c ∈ p.outputExtent, Option.Rel (placed.ReadsFactors c) args case.factors := by
  unfold Case.factors
  cases hs : case.operands.scale with
  | none =>
    rw [hs] at hargs
    cases hargs
    exact ⟨.none, fun c _ => .none⟩
  | some s =>
    rw [hs] at hargs
    obtain ⟨args', hargs', hsome⟩ := exists_of_bind_eq_ok hargs
    cases hsome
    have hrel := Scales.related_of_mapM_eq_ok hargs'
    refine ⟨.some (hrel.map_of_mem fun staged hmem arg harg => (h.tell_factor hs hmem harg).1),
      fun c hc => .some ?_⟩
    have hreads : ∀ staged ∈ s.toList, ∀ arg,
        Case.scalarArgument case.factorView staged = .ok arg →
        placed.scalar? arg c = some (.ofReal (Case.factorOf staged)) :=
      fun staged hmem arg harg => (h.tell_factor hs hmem harg).2 c hc
    refine ⟨hreads _ (by simp [Scales.toList]) _ hrel.a,
      hreads _ (by simp [Scales.toList]) _ hrel.b,
      hreads _ (by simp [Scales.toList]) _ hrel.c,
      hreads _ (by simp [Scales.toList]) _ hrel.d, ?_⟩
    intro arg haux
    have hrelAux := hrel.aux
    rw [show args'.aux = some arg from haux] at hrelAux
    obtain ⟨staged, hstaged, harg⟩ := exists_of_rel_of_some hrelAux
    have hfactor : (s.aux.map Case.factorOf).getD 1 = Case.factorOf staged := by
      rw [hstaged]
      rfl
    have hread := hreads staged (by simp [Scales.toList, hstaged]) arg harg
    rwa [← hfactor] at hread

/-! #### All operands -/

theorem tell_output (h : Materialized config p x y before case placed) (hn : 0 < p.n)
    (channel : Channel) {staged : Staged}
    (hs : case.operands.outputs.get? channel = some staged) :
    Staged.Told placed (some staged.argument) staged := by
  obtain ⟨hcompact, hbuffer, -⟩ := h.output hs
  exact (h.served (Operands.mem_toList_of_output hs) hcompact).told hbuffer (h.output_shape hs).1
    (h.count_channel_lt hn channel)

/-- **The arguments of a case tell of its operands.** -/
theorem tell (h : Materialized config p x y before case placed) (hn : 0 < p.n)
    (harg : case.arguments = .ok launch) :
    Operands.Related (Staged.Told placed) launch.tensors case.operands := by
  obtain ⟨alpha, beta, scale, halpha, hbeta, hscale, rfl⟩ := Case.arguments_eq_ok harg
  obtain ⟨n, hcount, halike, hbuffer⟩ := h.alpha
  obtain ⟨n', hcount', halike', hbuffer'⟩ := h.beta
  have houtput := fun (channel : Channel) => Staged.told_option
    (case.operands.outputs.get? channel) fun staged hs => h.tell_output hn channel hs
  exact {
    a := (h.served (by simp [Operands.toList]) h.left.1.compact).told h.left.2
      h.left.1.extent_eq h.count_left_lt
    b := (h.served (by simp [Operands.toList]) h.right.1.compact).told h.right.2
      h.right.1.extent_eq h.count_right_lt
    c := (h.served (by simp [Operands.toList]) h.addend.1.compact).told h.addend.2
      h.addend.1.extent_eq h.count_output_lt
    alpha := (h.tell_scalar (by simp [Operands.toList]) hcount halike hbuffer halpha).1
    beta := (h.tell_scalar (by simp [Operands.toList]) hcount' halike' hbuffer' hbeta).1
    scale := (h.tell_factors hscale).1
    bias := Staged.told_option _ fun staged hs =>
      (h.served (by simp [Operands.toList, hs]) (h.bias hs).1).told (h.bias hs).2
        (h.bias_packed hs).extent_eq (h.count_rows_lt hn)
    auxIn := Staged.told_option _ fun staged hs =>
      (h.served (by simp [Operands.toList, hs]) (h.auxIn hs).1).told (h.auxIn hs).2
        (h.auxIn_packed hs).extent_eq h.count_output_lt
    outputs := {
      d := h.tell_output hn .d rfl
      absMaxD := houtput .absMaxD
      biasGradient := houtput .biasGradient
      aux := houtput .aux
      absMaxAux := houtput .absMaxAux } }

/-- Arguments that are not empty point to allocations of their own. -/
theorem pairwise_tensors (h : Materialized config p x y before case placed)
    (htell : Operands.Related (Staged.Told placed) launch.tensors case.operands) :
    (launch.tensors.toList.filterMap id).Pairwise fun t t' =>
      0 < t.layout.extent.count → 0 < t'.layout.extent.count → t.pointer ≠ t'.pointer := by
  rw [List.pairwise_filterMap]
  refine pairwise_of_forall₂ htell.forall₂_toList h.holds.pairwise_pointers ?_
  intro arg? staged arg?' staged' htold htold' hdistinct t ht t' ht' hcount _
  have hne := htold.pointer_ne_null t ht hcount
  rw [htold.pointer_eq t ht] at hne ⊢
  rw [htold'.pointer_eq t' ht']
  exact hdistinct hne

end Materialized

/-- **The device and the host agree once a case is set up.**  Every argument tells of its operand
what is so, the arguments that are not empty have allocations of their own, and at each coordinate
of the output a kernel reads alpha, beta and the scale factors in bounds and as the reference reads
them. -/
theorem Case.arguments_tell {config : Config} {p : Problem} {x y : Float} {device placed : Device}
    {case : Case} (hd : device.Sound) (hm : 0 < p.m) (hn : 0 < p.n)
    (hset : Case.setUp config p x y device = (.ok case, placed)) :
    ∃ launch, case.arguments = .ok launch ∧
      Operands.Related (Staged.Told placed) launch.tensors case.operands ∧
      ((launch.tensors.toList.filterMap id).Pairwise fun t t' =>
        0 < t.layout.extent.count → 0 < t'.layout.extent.count → t.pointer ≠ t'.pointer) ∧
      ∀ c ∈ p.outputExtent,
        placed.scalar? launch.alpha c = some (case.fusedProduct.alpha.read c) ∧
        placed.scalar? launch.beta c = some (case.fusedProduct.beta.read c) ∧
        Option.Rel (placed.ReadsFactors c) launch.scale case.fusedProduct.scale := by
  have h := materialized_of_setUp hd hset
  obtain ⟨launch, harg⟩ := h.exists_arguments fun hrows => hm.ne' hrows.2
  have htell := h.tell hn harg
  obtain ⟨alpha, beta, scale, halpha, hbeta, hscale, hlaunch⟩ := Case.arguments_eq_ok harg
  refine ⟨launch, harg, htell, h.pairwise_tensors htell, fun c hc => ?_⟩
  obtain ⟨n, hcount, halike, hbuffer⟩ := h.alpha
  obtain ⟨n', hcount', halike', hbuffer'⟩ := h.beta
  rw [hlaunch]
  exact ⟨(h.tell_scalar (by simp [Operands.toList]) hcount halike hbuffer halpha).2 c hc,
    (h.tell_scalar (by simp [Operands.toList]) hcount' halike' hbuffer' hbeta).2 c hc,
    (h.tell_factors hscale).2 c hc⟩

/-- An epilogue with a bias, whose scalars and scale factors are in device memory. -/
def scaled : Config where
  fusion := { scaleFactors := true, rowBias := true }
  scalarLocation := .device

/-- Two products of a column by a row. -/
def outerProducts : Problem := ⟨2, 2, 1, 2, Nat.two_pos⟩

theorem Case.arguments_tell_scaled : ({} : Device).Sound ∧ 0 < outerProducts.m ∧
    0 < outerProducts.n ∧ ∃ case placed launch,
      Case.setUp scaled outerProducts 1 0 {} = (.ok case, placed) ∧
      case.arguments = .ok launch ∧
      placed.scalar? launch.beta ⟨1, 1, 1⟩ = some (case.fusedProduct.beta.read ⟨1, 1, 1⟩) := by
  have hd : ({} : Device).Sound := Device.sound_empty none
  have hm : 0 < outerProducts.m := by decide
  have hn : 0 < outerProducts.n := by decide
  obtain ⟨case, placed, hset⟩ : ∃ case placed,
      Case.setUp scaled outerProducts 1 0 {} = (.ok case, placed) := ⟨_, _, rfl⟩
  obtain ⟨launch, harg, -, -, hreads⟩ := Case.arguments_tell hd hm hn hset
  exact ⟨hd, hm, hn, case, placed, launch, hset, harg, (hreads ⟨1, 1, 1⟩ (by decide)).2.1⟩

end FusedGemm
