import FusedGemm.Proofs.Trial.Footprint

/-!
# The tensors of a case

Setting up a case makes a fixed list of tensors (`Config.requests`), with sizes that follow from the
problem and the features.  Each entry of the plan *serves* its request: it lays out a tensor of the
requested size, and fails only where a tensor is too large (`Config.plan_serves`).  All sizes are
checked before there is storage but for that of a column of biases.
-/

namespace FusedGemm

/-! ### What is requested -/

/-- A tensor that is made when a case is set up. -/
structure Request where
  name : String
  extent : Extent
  bytes : Nat
  onDevice : Bool := true
  /-- Its size is checked before there is storage for it. -/
  checked : Bool := true

namespace Request

/-- What is wrong with a tensor whose bytes are not addressable. -/
def refusal (request : Request) : Failure :=
  if request.checked then .oversized request.name request.extent else .unaddressable request.name

/-- The bytes of the requested tensors that are to be in device memory. -/
def placed (requests : List Request) : List Nat := (requests.filter onDevice).map bytes

end Request

namespace Config

variable (config : Config) (p : Problem)

/-- The operands of the product, the summand and the output. -/
def matrixRequests : List Request :=
  [⟨"A", p.leftExtent, p.leftExtent.count * config.typeA.size, true, true⟩,
    ⟨"B", p.rightExtent, p.rightExtent.count * config.typeB.size, true, true⟩,
    ⟨"C", p.outputExtent, p.outputExtent.count * config.typeC.size, true, true⟩,
    ⟨"D", p.outputExtent, p.outputExtent.count * config.typeD.size, true, true⟩]

/-- Alpha or beta, which are both refused under the name of alpha and with the extent of the
output. -/
def scalarRequest : Request :=
  ⟨"alpha", p.outputExtent, config.broadcast.count p * config.typeScalar.size,
    config.broadcast.onDevice, true⟩

/-- The scale factors. -/
def factorRequests : List Request :=
  (["scale_a", "scale_b", "scale_c", "scale_d"] ++
    if config.capabilities.auxOut then ["scale_aux"] else []).map fun name =>
      ⟨name, ⟨1, 1, 1⟩, config.typeScalar.size, config.scalarLocation == .device, true⟩

/-- What is made before the bias. -/
def requestsBeforeBias : List Request :=
  config.matrixRequests p ++ List.replicate 2 (config.scalarRequest p) ++
    if config.capabilities.scaleFactors then config.factorRequests else []

/-- The bias, or its gradient. -/
def biasRequest : Request :=
  ⟨if config.capabilities.rowBias then "bias" else "dBias", ⟨p.m, 1, 1⟩,
    p.m * config.typeBias.size, true, false⟩

/-- A running maximum. -/
def absMaxRequest (name : String) : Request :=
  ⟨name, ⟨1, 1, 1⟩, config.typeAbsMax.size, true, true⟩

/-- The auxiliary tensor. -/
def auxRequest : Request :=
  ⟨"Aux", p.outputExtent, p.outputExtent.count * config.typeAux.size, true, true⟩

/-- What is made after the bias. -/
def requestsAfterBias : List Request :=
  (if config.capabilities.needsAux then [config.auxRequest p] else []) ++
    (if config.capabilities.absMaxD then [config.absMaxRequest "abs_max_D"] else []) ++
    if config.capabilities.absMaxAux then [config.absMaxRequest "abs_max_Aux"] else []

/-- All tensors of a case in the order in which they are made.  The reference of an output is as
large as the output. -/
def requests : List Request :=
  config.requestsBeforeBias p ++
    ((if config.capabilities.needsBias then [config.biasRequest p] else []) ++
      config.requestsAfterBias p)

end Config

/-! ### What is not checked -/

namespace Config

variable {config : Config} {p : Problem}

theorem checked_of_mem_requestsBeforeBias :
    ∀ r ∈ config.requestsBeforeBias p, r.checked = true := by
  have hmatrices : ∀ r ∈ config.matrixRequests p, r.checked = true := by simp [matrixRequests]
  have hscalars : ∀ r ∈ List.replicate 2 (config.scalarRequest p), r.checked = true := by
    intro r hr
    rw [List.eq_of_mem_replicate hr]
    rfl
  have hfactors : ∀ r ∈ if config.capabilities.scaleFactors then config.factorRequests else [],
      r.checked = true := by
    intro r hr
    split_ifs at hr
    · obtain ⟨name, -, rfl⟩ := List.mem_map.mp hr
      rfl
    · cases hr
  exact List.forall_mem_append.mpr ⟨List.forall_mem_append.mpr ⟨hmatrices, hscalars⟩, hfactors⟩

theorem checked_of_mem_requestsAfterBias :
    ∀ r ∈ config.requestsAfterBias p, r.checked = true := by
  have hite : ∀ (active : Bool) (request : Request), request.checked = true →
      ∀ r ∈ if active then [request] else [], r.checked = true := by
    intro active request hchecked
    cases active <;> simp [hchecked]
  exact List.forall_mem_append.mpr ⟨List.forall_mem_append.mpr ⟨hite _ _ rfl, hite _ _ rfl⟩,
    hite _ _ rfl⟩

/-- Only the bias is not checked, and there is at most one of it. -/
theorem eq_bias_of_not_checked {earlier later : List Request} {request : Request}
    (h : config.requests p = earlier ++ request :: later) (hchecked : request.checked = false) :
    config.capabilities.needsBias = true ∧ earlier = config.requestsBeforeBias p ∧
      request = config.biasRequest p := by
  have hbefore : request ∉ config.requestsBeforeBias p := fun hmem =>
    absurd (checked_of_mem_requestsBeforeBias _ hmem) (by simp [hchecked])
  have hafter : request ∉ config.requestsAfterBias p := fun hmem =>
    absurd (checked_of_mem_requestsAfterBias _ hmem) (by simp [hchecked])
  have hmem : request ∈ config.requests p := by simp [h]
  rw [requests] at h hmem
  cases hneeds : config.capabilities.needsBias with
  | false => simp [hneeds, hbefore, hafter] at hmem
  | true =>
    rw [hneeds] at h
    obtain ⟨hearlier, hrequest, -⟩ := (List.append_cons_inj_of_notMem hbefore hafter).mp h
    exact ⟨rfl, hearlier.symm, hrequest.symm⟩

end Config

/-! ### What can be laid out -/

theorem exists_of_bind_eq_error {ε α β : Type} {x : Except ε α} {f : α → Except ε β} {e : ε}
    (h : x >>= f = .error e) : x = .error e ∨ ∃ y, x = .ok y ∧ f y = .error e := by
  cases x with
  | error e' =>
    cases h
    exact Or.inl rfl
  | ok y => exact Or.inr ⟨y, rfl, h⟩

namespace Config

variable {config : Config} {p : Problem} {e : Failure}

theorem scalarCount_eq_error (h : config.scalarCount p = .error e) :
    e = .oversized "alpha" p.outputExtent ∧
      AddressSpace.limit ≤ config.broadcast.count p * config.typeScalar.size := by
  constructor
  · unfold scalarCount at h
    split at h
    · cases h
    · exact (Except.error.inj h).symm
  · by_contra hlt
    rw [scalarCount_eq_ok (Nat.lt_of_not_le hlt)] at h
    cases h

theorem biasStorage_eq_error_iff {name : String} : config.biasStorage p name = .error e ↔
    e = .unaddressable name ∧ AddressSpace.limit ≤ p.m * config.typeBias.size := by
  unfold biasStorage AddressSpace.mul? AddressSpace.check
  split_ifs with h
  · simp [h]
  · simp [Nat.le_of_not_lt h, eq_comm]

end Config

/-- The tensor has the requested size where this is addressable, and is refused elsewhere. -/
structure Request.Answered (request : Request) (x : Except Failure Tensor) : Prop where
  ok : ∀ t, x = .ok t → t.byteSize = request.bytes ∧ request.bytes < AddressSpace.limit
  error : ∀ e, x = .error e → e = request.refusal ∧ AddressSpace.limit ≤ request.bytes

namespace Request.Answered

variable {config : Config} {p : Problem} {request : Request} {x : Except Failure Tensor}

theorem packed (name : String) (type : ElementType) (order : MatrixOrder) {e : Extent}
    (hb : 0 < e.batch) (onDevice : Bool) :
    Answered ⟨name, e, e.count * type.size, onDevice, true⟩ (Tensor.packed name type order e) where
  ok _ ht := ⟨Tensor.byteSize_of_packed ht, Tensor.bytes_lt_of_packed_eq_ok ht⟩
  error _ he := (Tensor.packed_eq_error_iff hb).mp he

/-- Filling a tensor changes neither its size nor what it is refused for. -/
theorem bind (h : Answered request x) {f : Tensor → Tensor} (hf : ∀ t : Tensor, t.Alike (f t)) :
    Answered request (x >>= fun t => pure (f t)) where
  ok t ht := by
    obtain ⟨u, hu, ht⟩ := exists_of_bind_eq_ok ht
    cases ht
    rw [(hf u).byteSize_eq]
    exact h.ok u hu
  error e he := by
    rcases exists_of_bind_eq_error he with hx | ⟨u, -, hpure⟩
    · exact h.error e hx
    · cases hpure

theorem recipe (r : Recipe) (hb : 0 < r.extent.batch) (onDevice : Bool) :
    Answered ⟨r.name, r.extent, r.extent.count * r.type.size, onDevice, true⟩ r.tensor :=
  (packed r.name r.type r.order hb onDevice).bind fun t =>
    (Tensor.alike_fillFrom t _ _).trans (Tensor.alike_withLeadingOne _)

theorem scalar {name : String}
    (hok : ∀ t, x = .ok t → ∃ n, config.scalarCount p = .ok n ∧
      (Tensor.zeros name config.typeScalar (.vector n)).Alike t)
    (herror : ∀ e, x = .error e → config.scalarCount p = .error e) :
    Answered (config.scalarRequest p) x where
  ok t ht := by
    obtain ⟨n, hn, halike⟩ := hok t ht
    obtain rfl := Broadcast.count_of_length? (Config.length?_of_scalarCount hn)
    rw [halike.byteSize_eq, Tensor.byteSize_vector]
    exact ⟨rfl, Config.scalarCount_bytes_lt hn⟩
  error e he := Config.scalarCount_eq_error (herror e he)

theorem column {name : String} {t : Tensor}
    (hsize : t.byteSize = p.m * config.typeBias.size) :
    Answered ⟨name, ⟨p.m, 1, 1⟩, p.m * config.typeBias.size, true, false⟩
      (do config.biasStorage p name; return t) where
  ok u hu := by
    obtain ⟨_, hstorage, hu⟩ := exists_of_bind_eq_ok hu
    cases hu
    exact ⟨hsize, Config.biasStorage_eq_ok_iff.mp hstorage⟩
  error e he := by
    rcases exists_of_bind_eq_error he with hstorage | ⟨_, -, hpure⟩
    · exact Config.biasStorage_eq_error_iff.mp hstorage
    · cases hpure

end Request.Answered

namespace Config

variable {config : Config} {p : Problem} {x y : Float}

/-- The entry lays out what is requested, or fails for a tensor that is too large: for the requested
one, or for one that is made before the bias. -/
structure Entry.Serves (config : Config) (p : Problem) (entry : Entry) (request : Request) :
    Prop where
  ok : ∀ placement, entry () = .ok placement → placement.tensor.byteSize = request.bytes ∧
    placement.onDevice = request.onDevice ∧ request.bytes < AddressSpace.limit
  error : ∀ e, entry () = .error e → ∃ r, (r = request ∨ r ∈ config.requestsBeforeBias p) ∧
    e = r.refusal ∧ AddressSpace.limit ≤ r.bytes

namespace Entry.Serves

variable {request other : Request} {z z' : Except Failure Tensor}

theorem of_answered (h : request.Answered z) :
    Serves config p (fun _ => Placement.mk <$> z <*> pure request.onDevice) request where
  ok placement hok := by
    obtain ⟨t, ht, rfl⟩ := exists_of_placement_eq_ok hok
    obtain ⟨hsize, hlt⟩ := h.ok t ht
    exact ⟨hsize, rfl, hlt⟩
  error e he := by
    cases z with
    | ok t => cases he
    | error e' =>
      cases he
      exact ⟨request, Or.inl rfl, h.error e rfl⟩

/-- One tensor is placed after another one has been laid out, too. -/
theorem of_pair (h : request.Answered z) (h' : other.Answered z')
    (hother : other ∈ config.requestsBeforeBias p) (hdevice : request.onDevice = true) :
    Serves config p (fun _ => do
      let t ← z
      let _ ← z'
      return ⟨t, true⟩) request where
  ok placement hok := by
    obtain ⟨t, ht, hrest⟩ := exists_of_bind_eq_ok hok
    obtain ⟨u, -, hplacement⟩ := exists_of_bind_eq_ok hrest
    cases hplacement
    obtain ⟨hsize, hlt⟩ := h.ok t ht
    exact ⟨hsize, hdevice.symm, hlt⟩
  error e he := by
    rcases exists_of_bind_eq_error he with hz | ⟨t, -, hrest⟩
    · exact ⟨request, Or.inl rfl, h.error e hz⟩
    · rcases exists_of_bind_eq_error hrest with hz' | ⟨u, -, hpure⟩
      · exact ⟨other, Or.inr hother, h'.error e hz'⟩
      · cases hpure

/-- A tensor of one element can always be laid out. -/
theorem of_element {t : Tensor} {name : String} {type : ElementType} (onDevice : Bool)
    (hsize : t.byteSize = type.size) :
    Serves config p (fun _ => .ok ⟨t, onDevice⟩) ⟨name, ⟨1, 1, 1⟩, type.size, onDevice, true⟩ where
  ok placement hok := by
    cases hok
    exact ⟨hsize, rfl, type.size_lt_limit⟩
  error e he := by cases he

end Entry.Serves

/-- Of an input and an output that exclude each other one is requested, if any is active. -/
theorem forall₂_either {R : Entry → Request → Prop} {input output : Bool} {entry entry' : Entry}
    {request : Request} (h : input = true → R entry request)
    (h' : input = false → output = true → R entry' request) :
    List.Forall₂ R ((if input then some entry else none).toList ++
      (if output && !input then some entry' else none).toList)
      (if input || output then [request] else []) := by
  cases input with
  | true => simpa using h rfl
  | false =>
    cases output with
    | true => simpa using h' rfl rfl
    | false => exact .nil

theorem matrices_serve (config : Config) (p : Problem) (x y : Float) :
    List.Forall₂ (Entry.Serves config p) [(config.plan p x y).a, (config.plan p x y).b,
      (config.plan p x y).c, (config.plan p x y).outputs.d] (config.matrixRequests p) := by
  have hleft := Request.Answered.recipe (config.leftRecipe p) p.batch_pos true
  have hright := Request.Answered.recipe (config.rightRecipe p) p.batch_pos true
  have haddend := Request.Answered.recipe (config.addendRecipe p) p.batch_pos true
  have hproduct := Request.Answered.packed "D" config.typeD config.orderD
    (e := p.outputExtent) p.batch_pos true
  have hmem : ∀ r ∈ config.matrixRequests p, r ∈ config.requestsBeforeBias p := fun r hr => by
    simp only [requestsBeforeBias, List.mem_append, hr, true_or]
  have hB := hmem _ (.tail _ (.head _))
  have hD := hmem _ (.tail _ (.tail _ (.tail _ (.head _))))
  exact .cons (.of_pair hleft hright hB rfl) (.cons (.of_answered hright)
    (.cons (.of_pair haddend hproduct hD rfl) (.cons (.of_answered hproduct) .nil)))

theorem scalars_serve (config : Config) (p : Problem) (x y : Float) :
    List.Forall₂ (Entry.Serves config p) [(config.plan p x y).alpha, (config.plan p x y).beta]
      (List.replicate 2 (config.scalarRequest p)) := by
  -- once their number is known, neither of them can fail
  have herror : ∀ {f : Nat → Except Failure Tensor} {e : Failure}, (∀ n, f n ≠ .error e) →
      config.scalarCount p >>= f = .error e → config.scalarCount p = .error e := by
    intro f e hf he
    exact (exists_of_bind_eq_error he).resolve_right fun ⟨n, _, hfill⟩ => hf n hfill
  have halpha : (config.scalarRequest p).Answered (config.alphaTensor p x) :=
    .scalar (fun t ht => alike_alphaTensor ht) fun e => herror fun n h => by
      dsimp only at h
      split_ifs at h <;> cases h
  have hbeta : (config.scalarRequest p).Answered (config.betaTensor p y) :=
    .scalar (fun t ht => alike_betaTensor ht) fun e => herror fun n h => by
      dsimp only at h
      split_ifs at h <;> cases h
  exact .cons (.of_answered halpha) (.cons (.of_answered hbeta) .nil)

theorem scalePlan_serves (config : Config) (p : Problem) :
    List.Forall₂ (Entry.Serves config p) config.scalePlan.toList config.factorRequests := by
  have hentry : ∀ name offset, Entry.Serves config p
      (fun _ => .ok ⟨config.scaleFactor name offset, config.scalarLocation == .device⟩)
      ⟨name, ⟨1, 1, 1⟩, config.typeScalar.size, config.scalarLocation == .device, true⟩ :=
    fun name offset => .of_element _ (config.byteSize_scaleFactor name offset)
  unfold scalePlan factorRequests
  cases config.capabilities.auxOut with
  | true => exact .cons (hentry _ _) (.cons (hentry _ _) (.cons (hentry _ _) (.cons (hentry _ _)
      (.cons (hentry _ _) .nil))))
  | false => exact .cons (hentry _ _) (.cons (hentry _ _) (.cons (hentry _ _) (.cons (hentry _ _)
      .nil)))

theorem bias_serves (config : Config) (p : Problem) (x y : Float) :
    List.Forall₂ (Entry.Serves config p)
      ((config.plan p x y).bias.toList ++ (config.plan p x y).outputs.biasGradient.toList)
      (if config.capabilities.needsBias then [config.biasRequest p] else []) := by
  refine forall₂_either (fun hin => ?_) (fun hin _ => ?_)
  · have hbias : (config.biasRequest p).Answered (config.biasInput p) := by
      rw [biasRequest, if_pos hin]
      exact .column (config.byteSize_biasTensor p)
    exact .of_answered hbias
  · have hgradient : (config.biasRequest p).Answered (config.biasOutput p) := by
      rw [biasRequest, hin]
      exact .column (Tensor.byteSize_vector _ _ _)
    exact .of_answered hgradient

theorem aux_serves (config : Config) (p : Problem) (x y : Float) :
    List.Forall₂ (Entry.Serves config p)
      ((config.plan p x y).auxIn.toList ++ (config.plan p x y).outputs.aux.toList)
      (if config.capabilities.needsAux then [config.auxRequest p] else []) := by
  have haux : (config.auxRequest p).Answered (config.auxOutput p) :=
    .packed "Aux" config.typeAux config.orderAux p.batch_pos true
  exact forall₂_either
    (fun _ => .of_answered (haux.bind fun t => Tensor.alike_fillFrom t _ _))
    (fun _ _ => .of_answered haux)

theorem absMax_serves (config : Config) (p : Problem) (name : String) (active : Bool) :
    List.Forall₂ (Entry.Serves config p)
      (if active then some fun _ => .ok ⟨config.absMaxTensor name, true⟩ else none).toList
      (if active then [config.absMaxRequest name] else []) := by
  cases active with
  | true => exact .cons (.of_element true (config.byteSize_absMaxTensor name)) .nil
  | false => exact .nil

/-- **Each entry of a plan serves its request.** -/
theorem plan_serves (config : Config) (p : Problem) (x y : Float) :
    List.Forall₂ (Entry.Serves config p) (config.plan p x y).toList (config.requests p) := by
  have hscale : List.Forall₂ (Entry.Serves config p)
      (((config.plan p x y).scale.map Scales.toList).getD [])
      (if config.capabilities.scaleFactors then config.factorRequests else []) := by
    unfold plan
    cases config.capabilities.scaleFactors with
    | true => exact config.scalePlan_serves p
    | false => exact .nil
  have hmaxima : List.Forall₂ (Entry.Serves config p)
      ((config.plan p x y).outputs.absMaxD.toList ++ (config.plan p x y).outputs.absMaxAux.toList)
      ((if config.capabilities.absMaxD then [config.absMaxRequest "abs_max_D"] else []) ++
        if config.capabilities.absMaxAux then [config.absMaxRequest "abs_max_Aux"] else []) :=
    List.rel_append (config.absMax_serves p "abs_max_D" config.capabilities.absMaxD)
      (config.absMax_serves p "abs_max_Aux" config.capabilities.absMaxAux)
  have hall := List.rel_append (config.matrices_serve p x y) (List.rel_append
    (config.scalars_serve p x y) (List.rel_append hscale (List.rel_append
      (config.bias_serves p x y) (List.rel_append (config.aux_serves p x y) hmaxima))))
  simpa only [Operands.toList, requests, requestsBeforeBias, requestsAfterBias, List.append_assoc,
    List.cons_append, List.nil_append] using hall

/-- The operands that are made have the requested sizes. -/
theorem sizes_eq_of_serves {entries : List Entry} {requests : List Request} {operands : List Staged}
    (h : List.Forall₂ (Entry.Serves config p) entries requests)
    (hmeets : List.Forall₂ Staged.Meets entries operands) :
    operands.map (fun staged => staged.host.byteSize) = requests.map Request.bytes := by
  induction h generalizing operands with
  | nil =>
    cases hmeets
    rfl
  | cons hserves _ ih =>
    cases hmeets with
    | cons hmeet hrest =>
      obtain ⟨placement, hok, hhost, -⟩ := hmeet
      rw [List.map_cons, List.map_cons, ih hrest, hhost, (hserves.ok placement hok).1]

end Config

end FusedGemm
