import FusedGemm.Proofs.Trial.Admission
import FusedGemm.Proofs.Trial.DeviceView

/-!
# The footprint of a trial

A configuration puts a fixed list of tensors into device memory, whose sizes follow from the problem
and the features alone (`Config.deviceSizes`).  Where these sizes are addressable every entry of the
plan can be laid out, with just these sizes (`Config.asks_plan`).  So setting up a case succeeds if
and only if there is room for their sum, and leaves the device with that much more in use
(`Case.setUp_footprint`).
-/

namespace FusedGemm

/-! ### Sizes -/

namespace Config

/-- The bytes of each tensor that is in device memory: the operands and the product, alpha and beta
unless they are passed by value, the scale factors where scalars are in device memory, the bias or
its gradient, the auxiliary tensor, and the running maxima. -/
def deviceSizes (config : Config) (p : Problem) : List Nat :=
  [p.leftExtent.count * config.typeA.size, p.rightExtent.count * config.typeB.size,
    p.outputExtent.count * config.typeC.size, p.outputExtent.count * config.typeD.size] ++
  (if config.broadcast.onDevice then
    List.replicate 2 (config.broadcast.count p * config.typeScalar.size) else []) ++
  (if config.capabilities.scaleFactors && config.scalarLocation == .device then
    List.replicate (if config.capabilities.auxOut then 5 else 4) config.typeScalar.size else []) ++
  (if config.capabilities.needsBias then [p.m * config.typeBias.size] else []) ++
  (if config.capabilities.needsAux then [p.outputExtent.count * config.typeAux.size] else []) ++
  (if config.capabilities.absMaxD then [config.typeAbsMax.size] else []) ++
  (if config.capabilities.absMaxAux then [config.typeAbsMax.size] else [])

/-- The bytes of all tensors that are in device memory. -/
def footprint (config : Config) (p : Problem) : Nat := (config.deviceSizes p).sum

end Config

/-! ### Tensors of addressable size -/

theorem ElementType.size_lt_limit (type : ElementType) : type.size < AddressSpace.limit := by
  cases type <;> decide

namespace Tensor

theorem byteSize_vector (name : String) (type : ElementType) (n : Nat) :
    (zeros name type (.vector n)).byteSize = n * type.size := by
  rw [byteSize, size_zeros, Layout.span_vector]
  rfl

end Tensor

/-- A filled matrix has the size of a packed one. -/
theorem Recipe.exists_tensor {r : Recipe} (hb : 0 < r.extent.batch)
    (h : r.extent.count * r.type.size < AddressSpace.limit) :
    ∃ t, r.tensor = .ok t ∧ t.byteSize = r.extent.count * r.type.size := by
  obtain ⟨t, ht⟩ := Tensor.exists_packed r.name r.order hb h
  refine ⟨(t.fillFrom r.fill r.seed).withLeadingOne, ?_, ?_⟩
  · rw [tensor, ht]
    rfl
  · rw [(Tensor.alike_withLeadingOne _).byteSize_eq, (Tensor.alike_fillFrom t _ _).byteSize_eq,
      Tensor.byteSize_of_packed ht]

/-! ### The entries of a plan -/

namespace Config

/-- The sizes that an entry asks for, none if it cannot be laid out. -/
def Entry.sizes (entry : Entry) : List Nat :=
  match entry () with
  | .ok placement => placement.sizes
  | .error _ => []

/-- The entries can be laid out, and ask for the given sizes. -/
structure Asks (entries : List Entry) (sizes : List Nat) : Prop where
  laidOut : ∀ entry ∈ entries, ∃ placement, entry () = .ok placement
  sizes_eq : entries.flatMap Entry.sizes = sizes

namespace Asks

variable {entries entries' : List Entry} {sizes sizes' : List Nat} {entry : Entry}

theorem nil : Asks [] [] := ⟨by simp, rfl⟩

theorem append (h : Asks entries sizes) (h' : Asks entries' sizes') :
    Asks (entries ++ entries') (sizes ++ sizes') where
  laidOut := by
    intro entry hmem
    rcases List.mem_append.mp hmem with hmem | hmem
    · exact h.laidOut entry hmem
    · exact h'.laidOut entry hmem
  sizes_eq := by rw [List.flatMap_append, h.sizes_eq, h'.sizes_eq]

theorem of_ok {placement : Placement} (h : entry () = .ok placement) :
    Asks [entry] placement.sizes where
  laidOut := by
    intro entry' hmem
    rw [List.mem_singleton.mp hmem]
    exact ⟨placement, h⟩
  sizes_eq := by
    rw [List.flatMap_singleton, Entry.sizes, h]

theorem of_placement (placement : Placement) : Asks [fun _ => .ok placement] placement.sizes :=
  of_ok rfl

/-- An entry of a tensor that is made and put into device memory, or left on the host. -/
theorem of_tensor {x : Except Failure Tensor} {t : Tensor} {n : Nat} (onDevice : Bool)
    (hx : x = .ok t) (hn : t.byteSize = n) :
    Asks [fun _ => Placement.mk <$> x <*> pure onDevice] (if onDevice then [n] else []) := by
  subst hx hn
  exact of_placement ⟨t, onDevice⟩

theorem ite (c : Prop) [Decidable c] (h : c → Asks [entry] sizes) :
    Asks (if c then some entry else none).toList (if c then sizes else []) := by
  by_cases hc : c
  · rw [if_pos hc, if_pos hc]
    exact h hc
  · rw [if_neg hc, if_neg hc]
    exact nil

end Asks

variable {config : Config} {p : Problem} {x : Float}

/-! #### What is laid out -/

theorem exists_left (h : p.leftExtent.count * config.typeA.size < AddressSpace.limit) :
    ∃ t, config.left p = .ok t ∧ t.byteSize = p.leftExtent.count * config.typeA.size :=
  Recipe.exists_tensor (r := config.leftRecipe p) p.batch_pos h

theorem exists_right (h : p.rightExtent.count * config.typeB.size < AddressSpace.limit) :
    ∃ t, config.right p = .ok t ∧ t.byteSize = p.rightExtent.count * config.typeB.size :=
  Recipe.exists_tensor (r := config.rightRecipe p) p.batch_pos h

theorem exists_addend (h : p.outputExtent.count * config.typeC.size < AddressSpace.limit) :
    ∃ t, config.addend p = .ok t ∧ t.byteSize = p.outputExtent.count * config.typeC.size :=
  Recipe.exists_tensor (r := config.addendRecipe p) p.batch_pos h

theorem exists_product (h : p.outputExtent.count * config.typeD.size < AddressSpace.limit) :
    ∃ t, config.product p = .ok t ∧ t.byteSize = p.outputExtent.count * config.typeD.size := by
  obtain ⟨t, ht⟩ := Tensor.exists_packed "D" config.orderD p.batch_pos h
  exact ⟨t, ht, Tensor.byteSize_of_packed ht⟩

theorem exists_auxOutput (h : p.outputExtent.count * config.typeAux.size < AddressSpace.limit) :
    ∃ t, config.auxOutput p = .ok t ∧ t.byteSize = p.outputExtent.count * config.typeAux.size := by
  obtain ⟨t, ht⟩ := Tensor.exists_packed "Aux" config.orderAux p.batch_pos h
  exact ⟨t, ht, Tensor.byteSize_of_packed ht⟩

theorem exists_auxInput (h : p.outputExtent.count * config.typeAux.size < AddressSpace.limit) :
    ∃ t, config.auxInput p = .ok t ∧ t.byteSize = p.outputExtent.count * config.typeAux.size := by
  obtain ⟨t, ht, hsize⟩ := exists_auxOutput h
  refine ⟨t.fillFrom config.fillC (config.seedAt 2023), ?_, ?_⟩
  · unfold auxInput
    rw [ht]
    rfl
  · rw [(Tensor.alike_fillFrom t _ _).byteSize_eq, hsize]

theorem byteSize_scaleFactor (config : Config) (name : String) (offset : UInt64) :
    (config.scaleFactor name offset).byteSize = config.typeScalar.size := by
  unfold scaleFactor
  rw [(Tensor.alike_fillFrom _ _ _).byteSize_eq, Layout.scalar, Tensor.byteSize_vector, one_mul]

theorem byteSize_absMaxTensor (config : Config) (name : String) :
    (config.absMaxTensor name).byteSize = config.typeAbsMax.size := by
  unfold absMaxTensor
  rw [(Tensor.alike_fill _ _).byteSize_eq, Layout.scalar, Tensor.byteSize_vector, one_mul]

theorem byteSize_biasTensor (config : Config) (p : Problem) :
    (config.biasTensor p).byteSize = p.m * config.typeBias.size := by
  unfold biasTensor
  rw [(Tensor.alike_fillFrom _ _ _).byteSize_eq, Tensor.byteSize_vector]

theorem exists_biasInput (h : p.m * config.typeBias.size < AddressSpace.limit) :
    ∃ t, config.biasInput p = .ok t ∧ t.byteSize = p.m * config.typeBias.size := by
  refine ⟨config.biasTensor p, ?_, config.byteSize_biasTensor p⟩
  unfold biasInput
  rw [biasStorage_eq_ok_iff.mpr h]
  rfl

theorem exists_biasOutput (h : p.m * config.typeBias.size < AddressSpace.limit) :
    ∃ t, config.biasOutput p = .ok t ∧ t.byteSize = p.m * config.typeBias.size := by
  refine ⟨config.gradientTensor p, ?_, Tensor.byteSize_vector _ _ _⟩
  unfold biasOutput
  rw [biasStorage_eq_ok_iff.mpr h]
  rfl

theorem scalarCount_eq_ok
    (h : config.broadcast.count p * config.typeScalar.size < AddressSpace.limit) :
    config.scalarCount p = .ok (config.broadcast.count p) := by
  have hcount : config.broadcast.count p < AddressSpace.limit := by
    have hle := Nat.le_mul_of_pos_right (config.broadcast.count p) config.typeScalar.size_pos
    omega
  unfold scalarCount
  rw [Broadcast.length?_of_count_lt hcount, Option.filter_some, AddressSpace.mul?_of_lt h]
  rfl

/-- Alpha and beta have as many bytes as the broadcast stores. -/
theorem byteSize_of_scalar {name : String} {t : Tensor}
    (h : config.broadcast.count p * config.typeScalar.size < AddressSpace.limit)
    (ht : ∃ n, config.scalarCount p = .ok n ∧
      (Tensor.zeros name config.typeScalar (.vector n)).Alike t) :
    t.byteSize = config.broadcast.count p * config.typeScalar.size := by
  obtain ⟨n, hn, halike⟩ := ht
  obtain rfl : n = config.broadcast.count p :=
    Except.ok.inj (hn.symm.trans (scalarCount_eq_ok h))
  rw [halike.byteSize_eq, Tensor.byteSize_vector]

theorem exists_alphaTensor (x : Float)
    (h : config.broadcast.count p * config.typeScalar.size < AddressSpace.limit) :
    ∃ t, config.alphaTensor p x = .ok t ∧
      t.byteSize = config.broadcast.count p * config.typeScalar.size := by
  obtain ⟨t, ht⟩ : ∃ t, config.alphaTensor p x = .ok t := by
    unfold alphaTensor
    rw [scalarCount_eq_ok h]
    dsimp only [bind, Except.bind]
    split_ifs <;> exact ⟨_, rfl⟩
  exact ⟨t, ht, byteSize_of_scalar h (alike_alphaTensor ht)⟩

theorem exists_betaTensor (x : Float)
    (h : config.broadcast.count p * config.typeScalar.size < AddressSpace.limit) :
    ∃ t, config.betaTensor p x = .ok t ∧
      t.byteSize = config.broadcast.count p * config.typeScalar.size := by
  obtain ⟨t, ht⟩ : ∃ t, config.betaTensor p x = .ok t := by
    unfold betaTensor
    rw [scalarCount_eq_ok h]
    dsimp only [bind, Except.bind]
    split_ifs <;> exact ⟨_, rfl⟩
  exact ⟨t, ht, byteSize_of_scalar h (alike_betaTensor ht)⟩

/-! #### What is asked for -/

/-- The operands of the product, the summand and the output. -/
theorem asks_matrices (config : Config) (p : Problem) (x y : Float)
    (hleft : p.leftExtent.count * config.typeA.size < AddressSpace.limit)
    (hright : p.rightExtent.count * config.typeB.size < AddressSpace.limit)
    (haddend : p.outputExtent.count * config.typeC.size < AddressSpace.limit)
    (hproduct : p.outputExtent.count * config.typeD.size < AddressSpace.limit) :
    Asks [(config.plan p x y).a, (config.plan p x y).b, (config.plan p x y).c,
        (config.plan p x y).outputs.d]
      [p.leftExtent.count * config.typeA.size, p.rightExtent.count * config.typeB.size,
        p.outputExtent.count * config.typeC.size, p.outputExtent.count * config.typeD.size] := by
  obtain ⟨a, ha, hsizeA⟩ := exists_left hleft
  obtain ⟨b, hb, hsizeB⟩ := exists_right hright
  obtain ⟨c, hc, hsizeC⟩ := exists_addend haddend
  obtain ⟨d, hd, hsizeD⟩ := exists_product hproduct
  have hentryA : (config.plan p x y).a () = .ok ⟨a, true⟩ := by
    dsimp only [plan]
    rw [ha, hb]
    rfl
  have hentryC : (config.plan p x y).c () = .ok ⟨c, true⟩ := by
    dsimp only [plan]
    rw [hc, hd]
    rfl
  rw [← hsizeA, ← hsizeC]
  exact (Asks.of_ok hentryA).append ((Asks.of_tensor true hb hsizeB).append
    ((Asks.of_ok hentryC).append (Asks.of_tensor true hd hsizeD)))

theorem asks_scalars (config : Config) (p : Problem) (x y : Float)
    (h : config.broadcast.count p * config.typeScalar.size < AddressSpace.limit) :
    Asks [(config.plan p x y).alpha, (config.plan p x y).beta]
      (if config.broadcast.onDevice then
        List.replicate 2 (config.broadcast.count p * config.typeScalar.size) else []) := by
  obtain ⟨alpha, halpha, hsizeAlpha⟩ := exists_alphaTensor x h
  obtain ⟨beta, hbeta, hsizeBeta⟩ := exists_betaTensor y h
  have hboth := (Asks.of_tensor config.broadcast.onDevice halpha hsizeAlpha).append
    (Asks.of_tensor config.broadcast.onDevice hbeta hsizeBeta)
  have hsizes : ∀ (onDevice : Bool) (n : Nat), (if onDevice then List.replicate 2 n else []) =
      (if onDevice then [n] else []) ++ (if onDevice then [n] else []) := by
    intro onDevice n
    cases onDevice <;> rfl
  rw [hsizes]
  exact hboth

/-- The scale factors are in device memory or not, all of them. -/
theorem asks_scalePlan (config : Config) :
    Asks config.scalePlan.toList (if config.scalarLocation == .device then
      List.replicate (if config.capabilities.auxOut then 5 else 4) config.typeScalar.size
      else []) := by
  have hentry : ∀ name offset, Asks
      [fun _ => .ok ⟨config.scaleFactor name offset, config.scalarLocation == .device⟩]
      (if config.scalarLocation == .device then [config.typeScalar.size] else []) := by
    intro name offset
    rw [← config.byteSize_scaleFactor name offset]
    exact Asks.of_placement ⟨config.scaleFactor name offset, config.scalarLocation == .device⟩
  have haux := Asks.ite (config.capabilities.auxOut = true) fun _ => hentry "scale_aux" 2027
  have hlist := (hentry "scale_a" 2023).append ((hentry "scale_b" 2024).append
    ((hentry "scale_c" 2025).append ((hentry "scale_d" 2026).append haux)))
  have hsizes : ∀ (onDevice auxOut : Bool) (n : Nat),
      (if onDevice then List.replicate (if auxOut then 5 else 4) n else []) =
        (if onDevice then [n] else []) ++ ((if onDevice then [n] else []) ++
          ((if onDevice then [n] else []) ++ ((if onDevice then [n] else []) ++
            if auxOut then (if onDevice then [n] else []) else []))) := by
    intro onDevice auxOut n
    cases onDevice <;> cases auxOut <;> rfl
  rw [hsizes]
  exact hlist

/-- Of an input and an output that exclude each other one asks for memory, if any is active. -/
theorem asks_either {input output : Bool} {entry entry' : Entry} {n : Nat}
    (h : input = true → Asks [entry] [n]) (h' : output = true → Asks [entry'] [n]) :
    Asks ((if input then some entry else none).toList ++
      (if output && !input then some entry' else none).toList)
      (if input || output then [n] else []) := by
  cases input with
  | true => simpa using h rfl
  | false =>
    cases output with
    | true => simpa using h' rfl
    | false => exact Asks.nil

theorem asks_absMax (config : Config) (name : String) (active : Bool) :
    Asks (if active then some fun _ => .ok ⟨config.absMaxTensor name, true⟩ else none).toList
      (if active then [config.typeAbsMax.size] else []) := by
  refine Asks.ite _ fun _ => ?_
  rw [← config.byteSize_absMaxTensor name]
  exact Asks.of_placement ⟨config.absMaxTensor name, true⟩

theorem asks_bias (config : Config) (p : Problem) (x y : Float)
    (h : config.capabilities.needsBias = true →
      p.m * config.typeBias.size < AddressSpace.limit) :
    Asks ((config.plan p x y).bias.toList ++ (config.plan p x y).outputs.biasGradient.toList)
      (if config.capabilities.needsBias then [p.m * config.typeBias.size] else []) := by
  refine asks_either (fun hin => ?_) (fun hout => ?_)
  · obtain ⟨t, ht, hsize⟩ := exists_biasInput (h (by simp [Capabilities.needsBias, hin]))
    exact Asks.of_tensor true ht hsize
  · obtain ⟨t, ht, hsize⟩ := exists_biasOutput (h (by simp [Capabilities.needsBias, hout]))
    exact Asks.of_tensor true ht hsize

theorem asks_aux (config : Config) (p : Problem) (x y : Float)
    (h : config.capabilities.needsAux = true →
      p.outputExtent.count * config.typeAux.size < AddressSpace.limit) :
    Asks ((config.plan p x y).auxIn.toList ++ (config.plan p x y).outputs.aux.toList)
      (if config.capabilities.needsAux then [p.outputExtent.count * config.typeAux.size]
      else []) := by
  refine asks_either (fun hin => ?_) (fun hout => ?_)
  · obtain ⟨t, ht, hsize⟩ := exists_auxInput (h (by simp [Capabilities.needsAux, hin]))
    exact Asks.of_tensor true ht hsize
  · obtain ⟨t, ht, hsize⟩ := exists_auxOutput (h (by simp [Capabilities.needsAux, hout]))
    exact Asks.of_tensor true ht hsize

/-- The bytes of alpha and beta are addressable, also where they are passed by value. -/
theorem scalar_size_lt (h : ∀ size ∈ config.deviceSizes p, size < AddressSpace.limit) :
    config.broadcast.count p * config.typeScalar.size < AddressSpace.limit := by
  cases hb : config.broadcast with
  | scalar =>
    show 1 * config.typeScalar.size < AddressSpace.limit
    rw [one_mul]
    exact config.typeScalar.size_lt_limit
  | perBatch => exact h _ (by simp [deviceSizes, hb, Broadcast.onDevice])
  | perRowPerBatch => exact h _ (by simp [deviceSizes, hb, Broadcast.onDevice])

/-- **The entries of a plan can be laid out** if their sizes are addressable, and ask for these
sizes. -/
theorem asks_plan (config : Config) (p : Problem) (x y : Float)
    (h : ∀ size ∈ config.deviceSizes p, size < AddressSpace.limit) :
    Asks (config.plan p x y).toList (config.deviceSizes p) := by
  have hmatrices := config.asks_matrices p x y (h _ (by simp [deviceSizes]))
    (h _ (by simp [deviceSizes])) (h _ (by simp [deviceSizes])) (h _ (by simp [deviceSizes]))
  have hscalars := config.asks_scalars p x y (scalar_size_lt h)
  have hscale : Asks (((config.plan p x y).scale.map Scales.toList).getD [])
      (if config.capabilities.scaleFactors && config.scalarLocation == .device then
        List.replicate (if config.capabilities.auxOut then 5 else 4) config.typeScalar.size
      else []) := by
    unfold plan
    cases config.capabilities.scaleFactors with
    | true => exact config.asks_scalePlan
    | false => exact Asks.nil
  have hbias := config.asks_bias p x y fun hneeds => h _ (by simp [deviceSizes, hneeds])
  have haux := config.asks_aux p x y fun hneeds => h _ (by simp [deviceSizes, hneeds])
  have hmaxima : Asks ((config.plan p x y).outputs.absMaxD.toList ++
      (config.plan p x y).outputs.absMaxAux.toList)
      ((if config.capabilities.absMaxD then [config.typeAbsMax.size] else []) ++
        if config.capabilities.absMaxAux then [config.typeAbsMax.size] else []) :=
    (config.asks_absMax "abs_max_D" config.capabilities.absMaxD).append
      (config.asks_absMax "abs_max_Aux" config.capabilities.absMaxAux)
  -- the parts stand in the order in which the tensors are placed
  have hall := hmatrices.append (hscalars.append (hscale.append (hbias.append
    (haux.append hmaxima))))
  simpa only [Operands.toList, deviceSizes, List.append_assoc, List.cons_append,
    List.nil_append] using hall

theorem takes_entry {entry : Entry} {placement : Placement} (h : entry () = .ok placement) :
    Takes (do
      let placement ← Acquire.ofExcept (entry ())
      Acquire.place placement) entry.sizes := by
  have hsizes : entry.sizes = placement.sizes := by rw [Entry.sizes, h]
  rw [hsizes, h]
  exact Takes.place placement

theorem takes_acquire_of_asks (hv : config.Valid) {p : Problem} {x y : Float} {sizes : List Nat}
    (hasks : Asks (config.plan p x y).toList sizes) : Takes (config.acquire p x y) sizes := by
  obtain ⟨comparison, hcomparison⟩ := hv.exists_comparison
  have hoperands := Takes.operands_mapM (o := config.plan p x y) fun entry hmem => by
    obtain ⟨placement, hok⟩ := hasks.laidOut entry hmem
    exact takes_entry hok
  rw [hasks.sizes_eq] at hoperands
  have hchecked : (config.comparison.mapError Failure.config) = .ok comparison := by
    rw [hcomparison]
    rfl
  have hall := hoperands.bind fun operands => (Takes.ofExcept hchecked).bind fun comparison =>
    Takes.pure (⟨config, p, x, y, comparison, operands, referenceOutputs operands⟩ : Case)
  unfold acquire
  simpa only [List.append_nil] using hall

/-- **Setting up takes the tensors of the plan.** -/
theorem takes_acquire (hv : config.Valid) (p : Problem) (x y : Float)
    (h : ∀ size ∈ config.deviceSizes p, size < AddressSpace.limit) :
    Takes (config.acquire p x y) (config.deviceSizes p) :=
  takes_acquire_of_asks hv (config.asks_plan p x y h)

/-- A valid configuration is set up by acquiring its operands. -/
theorem Valid.setUp_eq (hv : config.Valid) (p : Problem) (x y : Float) (device : Device) :
    Case.setUp config p x y device = (config.acquire p x y).run device := by
  have hvalidate : config.validate = .ok config := by
    have hfault : config.fault? = none := hv
    rw [Config.validate, hfault]
  rw [Case.setUp, hvalidate]
  rfl

end Config

/-! ### Setting up -/

/-- **Exact footprint and admission.**  Where the sizes of all tensors are addressable, a case of a
valid configuration is set up if and only if there is room for its footprint.  Then this much more
is in use, in as many more allocations as there are tensors that are not empty.  Otherwise the
device is out of memory, and there is no other failure. -/
theorem Case.setUp_footprint {config : Config} {p : Problem} {x y : Float} {device : Device}
    (hd : device.Sound) (hv : config.Valid)
    (hsizes : ∀ size ∈ config.deviceSizes p, size < AddressSpace.limit) :
    ((∃ case placed, Case.setUp config p x y device = (.ok case, placed)) ↔
      ∀ available ∈ device.available?, config.footprint p ≤ available) ∧
    (∀ case placed, Case.setUp config p x y device = (.ok case, placed) →
      placed.allocatedBytes = device.allocatedBytes + config.footprint p ∧
      placed.liveAllocations =
        device.liveAllocations + (config.deviceSizes p).countP (fun size => 0 < size) ∧
      placed.totalAllocations =
        device.totalAllocations + (config.deviceSizes p).countP (fun size => 0 < size)) ∧
    ∀ e after, Case.setUp config p x y device = (.error e, after) →
      ∃ requested available, e = .device (.outOfMemory requested available) := by
  have htakes := config.takes_acquire hv p x y hsizes
  have hrun := hv.setUp_eq p x y device
  by_cases hroom : device.HasRoom (config.footprint p)
  · obtain ⟨case, placed, hok, hgrown⟩ := htakes.run_of_hasRoom hd hroom
    rw [← hrun] at hok
    refine ⟨⟨fun _ => hroom, fun _ => ⟨case, placed, hok⟩⟩, ?_, ?_⟩
    · intro case' placed' hok'
      rw [hok] at hok'
      cases hok'
      exact ⟨hgrown.allocatedBytes_eq, hgrown.liveAllocations_eq, hgrown.totalAllocations_eq⟩
    · intro e after herror
      rw [hok] at herror
      cases herror
  · obtain ⟨requested, available, after, herror⟩ := Starves.run htakes.fails hd hroom
    rw [← hrun] at herror
    have hnone : ∀ case placed, Case.setUp config p x y device ≠ (.ok case, placed) := by
      intro case placed hok
      rw [herror] at hok
      cases hok
    refine ⟨⟨?_, fun h => absurd h hroom⟩, fun case placed hok => absurd hok (hnone case placed), ?_⟩
    · rintro ⟨case, placed, hok⟩
      exact absurd hok (hnone case placed)
    · intro e after' herror'
      rw [herror] at herror'
      cases herror'
      exact ⟨requested, available, rfl⟩

/-- The case of a few bytes fits a device of just its footprint and none that is a byte smaller. -/
theorem Case.setUp_footprint_outerProducts :
    scaled.Valid ∧ (∀ size ∈ scaled.deviceSizes outerProducts, size < AddressSpace.limit) ∧
      (∃ case placed,
        Case.setUp scaled outerProducts 1 0 { capacity := some 136 } = (.ok case, placed) ∧
        placed.allocatedBytes = 136 ∧ placed.liveAllocations = 11) ∧
      ¬ ∃ case placed,
        Case.setUp scaled outerProducts 1 0 { capacity := some 135 } = (.ok case, placed) := by
  have hv : scaled.Valid := by decide
  have hsizes : ∀ size ∈ scaled.deviceSizes outerProducts, size < AddressSpace.limit := by decide
  obtain ⟨hiff, hgrown, -⟩ := Case.setUp_footprint (x := 1) (y := 0)
    (Device.sound_empty (some 136)) hv hsizes
  obtain ⟨hiff', -, -⟩ := Case.setUp_footprint (x := 1) (y := 0)
    (Device.sound_empty (some 135)) hv hsizes
  obtain ⟨case, placed, hset⟩ := hiff.mpr (by decide)
  obtain ⟨hbytes, hlive, -⟩ := hgrown case placed hset
  have hfootprint : scaled.footprint outerProducts = 136 := by decide
  have hcount : (scaled.deviceSizes outerProducts).countP (fun size => 0 < size) = 11 := by decide
  rw [hfootprint] at hbytes
  rw [hcount] at hlive
  exact ⟨hv, hsizes, ⟨case, placed, hset, hbytes, hlive⟩, mt hiff'.mp (by decide)⟩

end FusedGemm
