import FusedGemm.Proofs.Gemm.FreshOutputs

/-!
# The reductions of a fused product

The loop over the coordinates stores `D` and `Aux` and gathers the sum of each row and the largest
absolute values on the way (`FusedProduct.visit`, `FusedProduct.pass`).  One such pass computes the
product (`applyInOnePass_eq`).  Each sum is that of one row over the batches and columns in order,
and is added to the gradient of its row alone; a running maximum takes the largest value if it
exceeds what it held, and else stays as it was (`applyCovered?_reductions`).
-/

namespace FusedGemm

/-! ### Three nested loops -/

/-- Counting to a product is counting line by line. -/
theorem range_mul (m n : Nat) : List.range (m * n) =
    (List.range m).flatMap fun i => (List.range n).map fun j => i * n + j := by
  induction m with
  | zero => simp
  | succ m ih =>
    rw [Nat.add_mul, Nat.one_mul, List.range_add, ih, List.range_succ, List.flatMap_append,
      List.flatMap_singleton]

theorem flatMap_range_eq {α : Type} {f : Nat → List α} {n i : Nat} (hi : i < n)
    (h : ∀ j < n, j ≠ i → f j = []) : (List.range n).flatMap f = f i := by
  induction n with
  | zero => exact absurd hi (Nat.not_lt_zero i)
  | succ n ih =>
    rw [List.range_succ, List.flatMap_append, List.flatMap_singleton]
    by_cases hn : i = n
    · subst hn
      have hnil : (List.range i).flatMap f = [] := by
        refine List.flatMap_eq_nil_iff.mpr fun j hj => ?_
        have hj := List.mem_range.mp hj
        exact h j (by omega) (by omega)
      rw [hnil, List.nil_append]
    · rw [ih (by omega) fun j hj => h j (by omega), h n (by omega) (by omega), List.append_nil]

namespace Extent

variable (e : Extent)

/-- Coordinates are listed as three nested loops visit them. -/
theorem coords_eq : e.coords = (List.range e.batch).flatMap fun batch =>
    (List.range e.rows).flatMap fun row =>
      (List.range e.cols).map fun col => ⟨row, col, batch⟩ := by
  have hcount : e.count = e.batch * e.rows * e.cols := by
    rw [count, Nat.mul_comm (e.rows * e.cols), Nat.mul_assoc]
  unfold coords
  rw [hcount, range_mul, List.map_flatMap, range_mul, List.flatMap_assoc]
  refine List.flatMap_congr fun batch hbatch => ?_
  rw [List.flatMap_map]
  refine List.flatMap_congr fun row hrow => ?_
  rw [List.map_map]
  refine List.map_congr_left fun col hcol => ?_
  rw [List.mem_range] at hbatch hrow hcol
  exact coord_rank (c := ⟨row, col, batch⟩) ⟨hrow, hcol, hbatch⟩

theorem foldl_coords {α : Type} (f : α → Coord → α) (x : α) : e.coords.foldl f x =
    (List.range e.batch).foldl (fun x batch => (List.range e.rows).foldl (fun x row =>
      (List.range e.cols).foldl (fun x col => f x ⟨row, col, batch⟩) x) x) x := by
  simp only [coords_eq, List.foldl_flatMap, List.foldl_map]

/-- The coordinates of one row, batch after batch. -/
theorem filter_row_coords {row : Nat} (h : row < e.rows) :
    (e.coords.filter fun c => c.row == row) = (List.range e.batch).flatMap fun batch =>
      (List.range e.cols).map fun col => ⟨row, col, batch⟩ := by
  rw [coords_eq, List.filter_flatMap]
  refine List.flatMap_congr fun batch _ => ?_
  rw [List.filter_flatMap, flatMap_range_eq h fun other _ hne => by simp [hne]]
  simp

end Extent

namespace FusedProduct

variable (p : FusedProduct)

/-! ### One pass -/

/-- What a pass over the coordinates has written and gathered. -/
structure Pass where
  d : Tensor
  aux : Option Tensor
  /-- The sum of the results in each row. -/
  sums : Nat → ComplexFloat
  /-- The largest absolute value of a result. -/
  largest : Float
  /-- The largest absolute value of what has been saved. -/
  largestSaved : Float

/-- The pass before the first coordinate. -/
def Pass.start (o : Outputs Tensor) : Pass := ⟨o.d, o.aux, fun _ => .zero, 0, 0⟩

/-- A backward pass adds the result to the sum of its row, a forward one saves the value before the
activation. -/
def gather (s : Pass) (c : Coord) (pre result : ComplexFloat) : Pass :=
  match p.auxIn, s.aux with
  | some _, _ => { s with sums := Function.update s.sums c.row (s.sums c.row + result) }
  | none, some aux =>
    { s with
      aux := some (aux.write c (pre.scale p.factors.aux))
      largestSaved := maxNumber s.largestSaved pre.norm }
  | none, none => s

/-- The pass after one more coordinate. -/
def visit (s : Pass) (c : Coord) : Pass :=
  let pre := p.biased c
  let result := p.finish c pre
  let gathered := p.gather s c pre result
  { gathered with
    largest := maxNumber gathered.largest result.norm
    d := gathered.d.write c (match p.scale with
      | some factors => result.scale factors.d
      | none => result) }

/-- A pass over all batches, rows and columns. -/
def pass (e : Extent) (s : Pass) : Pass :=
  (List.range e.batch).foldl (fun s batch => (List.range e.rows).foldl (fun s row =>
    (List.range e.cols).foldl (fun s col => p.visit s ⟨row, col, batch⟩) s) s) s

/-- The outputs of one pass: the sums are added to the gradient and the maxima are raised. -/
def applyInOnePass (o : Outputs Tensor) : Outputs Tensor :=
  let s := p.pass o.d.extent (.start o)
  { d := s.d
    aux := s.aux
    biasGradient := o.biasGradient.map fun t => (List.range o.d.extent.rows).foldl
      (fun t row => t.write ⟨row, 0, 0⟩ (t.read ⟨row, 0, 0⟩ + s.sums row)) t
    absMaxD := o.absMaxD.map fun t => raise t s.largest
    absMaxAux := o.absMaxAux.map fun t => raise t s.largestSaved }

section Visit

variable (s : Pass) (c : Coord)

theorem d_visit : (p.visit s c).d = s.d.write c (p.product (p.cell c)) := by
  unfold visit gather
  cases p.auxIn <;> cases s.aux <;> rfl

theorem largest_visit :
    (p.visit s c).largest = maxNumber s.largest (p.cell c).result.norm := by
  unfold visit gather
  cases p.auxIn <;> cases s.aux <;> rfl

theorem aux_visit : (p.visit s c).aux =
    s.aux.map fun t => if p.auxIn.isSome then t else t.write c (p.saved (p.cell c)) := by
  unfold visit gather
  cases p.auxIn <;> cases h : s.aux <;> first | exact h | rfl

theorem sums_visit (row : Nat) : (p.visit s c).sums row =
    if p.auxIn.isSome && c.row == row then s.sums row + (p.cell c).result else s.sums row := by
  unfold visit gather
  cases p.auxIn with
  | none => cases s.aux <;> rfl
  | some _ =>
    by_cases hrow : c.row = row
    · subst hrow
      simp [cell]
    · simp [hrow, Function.update_of_ne (Ne.symm hrow)]

theorem largestSaved_visit : (p.visit s c).largestSaved =
    if p.auxIn.isNone && s.aux.isSome then maxNumber s.largestSaved (p.cell c).pre.norm
    else s.largestSaved := by
  unfold visit gather
  cases p.auxIn <;> cases s.aux <;> rfl

end Visit

theorem pass_eq_foldl (e : Extent) (s : Pass) : p.pass e s = e.coords.foldl p.visit s :=
  (e.foldl_coords p.visit s).symm

section Pass

variable (e : Extent) (s : Pass)

/-- A quantity that each visit changes by itself is folded over the coordinates. -/
theorem foldl_pass {α : Type} (f : Pass → α) (g : α → Coord → α)
    (h : ∀ s c, f (p.visit s c) = g (f s) c) : f (p.pass e s) = e.coords.foldl g (f s) := by
  rw [pass_eq_foldl]
  exact (List.foldl_hom f fun s c => (h s c).symm).symm

theorem d_pass : (p.pass e s).d = store s.d p.product (p.cells e) := by
  rw [store, cells, List.foldl_map]
  exact p.foldl_pass e s Pass.d (fun t c => t.write c (p.product (p.cell c))) p.d_visit

theorem largest_pass : (p.pass e s).largest =
    (p.cells e).foldl (fun x cell => maxNumber x cell.result.norm) s.largest := by
  rw [cells, List.foldl_map]
  exact p.foldl_pass e s Pass.largest (fun x c => maxNumber x (p.cell c).result.norm)
    p.largest_visit

theorem sums_pass (row : Nat) : (p.pass e s).sums row =
    if p.auxIn.isSome then (e.coords.filter fun c => c.row == row).foldl
      (fun sum c => sum + (p.cell c).result) (s.sums row) else s.sums row := by
  rw [p.foldl_pass e s (fun s => s.sums row) (fun sum c =>
    if p.auxIn.isSome && c.row == row then sum + (p.cell c).result else sum)
    (fun s c => p.sums_visit s c row), List.foldl_filter]
  cases p.auxIn with
  | none => simp
  | some _ => simp

theorem aux_pass : (p.pass e s).aux =
    s.aux.map fun t => if p.auxIn.isSome then t else store t p.saved (p.cells e) := by
  rw [p.foldl_pass e s Pass.aux (fun x c => x.map fun t =>
    if p.auxIn.isSome then t else t.write c (p.saved (p.cell c))) p.aux_visit, cells]
  cases p.auxIn with
  | some _ => simp
  | none =>
    cases s.aux with
    | none =>
      simp only [Option.map_none]
      exact List.foldl_fixed' (fun _ => rfl) _
    | some t =>
      rw [Option.map_some]
      simp only [Option.isSome_none, Bool.false_eq_true, if_false, store, List.foldl_map]
      exact List.foldl_hom some fun t c => rfl

theorem largestSaved_pass : (p.pass e s).largestSaved =
    if p.auxIn.isNone && s.aux.isSome then
      (p.cells e).foldl (fun x cell => maxNumber x cell.pre.norm) s.largestSaved
    else s.largestSaved := by
  rw [pass_eq_foldl, cells, List.foldl_map]
  induction e.coords generalizing s with
  | nil => simp
  | cons c cs ih =>
    rw [List.foldl_cons, ih, largestSaved_visit, aux_visit, Option.isSome_map, List.foldl_cons]
    split_ifs <;> rfl

end Pass

theorem rowSum_cells (row : Nat) (e : Extent) : rowSum row (p.cells e) =
    (e.coords.filter fun c => c.row == row).foldl (fun sum c => sum + (p.cell c).result) .zero := by
  rw [rowSum, cells, List.filter_map, List.foldl_map]
  rfl

/-- The product is what one pass computes. -/
theorem applyInOnePass_eq (o : Outputs Tensor) : p.applyInOnePass o = p.apply o := by
  have hsums : ∀ row, (p.pass o.d.extent (.start o)).sums row =
      p.gradient row (p.cells o.d.extent) := by
    intro row
    rw [sums_pass, gradient, rowSum_cells]
    rfl
  unfold applyInOnePass apply addGradient
  simp only [hsums, d_pass, aux_pass, largest_pass, largestSaved_pass]
  rfl

/-! ### Gradients -/

/-- The gradient of a row: after a backward pass the sum of its results, over the batches and in
each over the columns, and zero after a forward one. -/
def rowGradient (e : Extent) (row : Nat) : ComplexFloat :=
  if p.auxIn.isSome then
    (List.range e.batch).foldl (fun sum batch => (List.range e.cols).foldl
      (fun sum col => sum + (p.cell ⟨row, col, batch⟩).result) sum) .zero
  else .zero

theorem gradient_cells {e : Extent} {row : Nat} (h : row < e.rows) :
    p.gradient row (p.cells e) = p.rowGradient e row := by
  rw [gradient, rowGradient, rowSum_cells, e.filter_row_coords h]
  simp only [List.foldl_flatMap, List.foldl_map]

/-- Gradients are added to rows that share no element, each to its own. -/
theorem addGradients_eq_writeAll (cells : List Cell) {rows : List Nat} {t : Tensor}
    (h : rows.Pairwise fun row row' => t.layout.offset ⟨row, 0, 0⟩ ≠ t.layout.offset ⟨row', 0, 0⟩) :
    rows.foldl (p.addGradient cells) t = t.writeAll (rows.map fun row => ⟨row, 0, 0⟩)
      fun c => t.read c + p.gradient c.row cells := by
  induction rows generalizing t with
  | nil => rfl
  | cons row rows ih =>
    obtain ⟨hrow, hrows⟩ := List.pairwise_cons.mp h
    rw [List.foldl_cons, ih (t := p.addGradient cells t row) hrows]
    refine Tensor.writeAll_congr fun c hc => ?_
    -- the rows that follow are read as they were before this one was written
    obtain ⟨row', hrow', rfl⟩ := List.mem_map.mp hc
    have hread : (p.addGradient cells t row).read ⟨row', 0, 0⟩ = t.read ⟨row', 0, 0⟩ :=
      Tensor.get_put_of_ne t (hrow row' hrow') _
    rw [hread]

theorem addGradients_stores {e : Extent} {t : Tensor} (hcov : t.Covers ⟨e.rows, 1, 1⟩)
    (hrows : ∀ row < e.rows, ∀ row' < e.rows,
      t.layout.offset ⟨row, 0, 0⟩ = t.layout.offset ⟨row', 0, 0⟩ → row = row') :
    ((List.range e.rows).foldl (p.addGradient (p.cells e)) t).Stores t (rowCoords e.rows)
      fun c => t.read c + p.rowGradient e c.row := by
  have hpairwise : (List.range e.rows).Pairwise fun row row' =>
      t.layout.offset ⟨row, 0, 0⟩ ≠ t.layout.offset ⟨row', 0, 0⟩ := by
    refine List.nodup_range.imp_of_mem fun hrow hrow' hne heq => hne ?_
    exact hrows _ (List.mem_range.mp hrow) _ (List.mem_range.mp hrow') heq
  have hcongr : ∀ c ∈ rowCoords e.rows, t.read c + p.gradient c.row (p.cells e) =
      t.read c + p.rowGradient e c.row := by
    intro c hc
    obtain ⟨row, hrow, rfl⟩ := mem_rowCoords.mp hc
    rw [p.gradient_cells hrow]
  rw [p.addGradients_eq_writeAll _ hpairwise]
  show (t.writeAll (rowCoords e.rows) _).Stores t (rowCoords e.rows) _
  rw [Tensor.writeAll_congr hcongr]
  exact Tensor.writeAll_rows_stores hcov hrows _

/-! ### Running maxima -/

/-- The largest absolute value over the batches, the rows and the columns, from zero on. -/
def largestOver (e : Extent) (value : Cell → ComplexFloat) : Float :=
  (List.range e.batch).foldl (fun x batch => (List.range e.rows).foldl (fun x row =>
    (List.range e.cols).foldl
      (fun x col => maxNumber x (value (p.cell ⟨row, col, batch⟩)).norm) x) x) 0

theorem largest_cells (e : Extent) (value : Cell → ComplexFloat) :
    largest value (p.cells e) = p.largestOver e value := by
  rw [largest, cells, List.foldl_map, e.foldl_coords]
  rfl

end FusedProduct

/-- `u` is `t` with `x` stored as its first element where that is larger than the one before, and
just `t` where it is not. -/
def Tensor.Raised (u t : Tensor) (x : Float) : Prop :=
  if (t.read .origin).re < x then u.Stores t [.origin] (fun _ => .ofReal x) else u = t

theorem Tensor.raised_raise {t : Tensor} (h : t.Covers ⟨1, 1, 1⟩) (x : Float) :
    (FusedProduct.raise t x).Raised t x := by
  unfold Raised FusedProduct.raise
  split_ifs
  · show (t.writeAll [.origin] fun _ => .ofReal x).Stores t [.origin] _
    refine writeAll_stores (by simp) (fun c hc => ?_) _
    rw [List.mem_singleton.mp hc]
    exact h.offset_lt ⟨Nat.one_pos, Nat.one_pos, Nat.one_pos⟩
  · rfl

namespace FusedProduct

variable {p : FusedProduct} {o : Outputs Tensor} {m n l : Nat}

/-- **The reductions of a fused product.**  Whatever lies in the storage it touches, one pass over
the coordinates computes it.  To the gradient of each row below `m` is added the sum of the results
of that row, which is zero after a forward pass, and its other elements stay as they were.  The
maxima are raised to the largest absolute values of the results and of what is saved, neither of
them scaled yet. -/
theorem applyCovered?_reductions (hextent : o.d.extent = ⟨m, n, l⟩) (hcovered : p.Covered o)
    (hrows : ∀ t ∈ o.biasGradient, ∀ row < m, ∀ row' < m,
      t.layout.offset ⟨row, 0, 0⟩ = t.layout.offset ⟨row', 0, 0⟩ → row = row') :
    let factors := p.scale.getD ⟨1, 1, 1, 1, 1⟩
    let acc (c : Coord) := (List.range p.a.extent.cols).foldl (fun acc i => p.accumulator.quantize
      (acc + p.a.read ⟨c.row, i, c.batch⟩ * p.b.read ⟨i, c.col, c.batch⟩)) ⟨0, 0⟩
    let combined (c : Coord) := ((p.alpha.read c).scale factors.a).scale factors.b * acc c +
      (p.beta.read c).scale factors.c * p.c.read c
    let pre (c : Coord) := match p.bias with
      | some bias => combined c + bias.read ⟨c.row, 0, 0⟩
      | none => combined c
    let result (c : Coord) := match p.auxIn with
      | some aux => (pre c).scale (p.activation.derivative (aux.read c).re)
      | none => p.activation.apply (pre c)
    let gradient (row : Nat) : ComplexFloat := match p.auxIn with
      | some _ => (List.range l).foldl (fun sum batch => (List.range n).foldl
          (fun sum col => sum + result ⟨row, col, batch⟩) sum) ⟨0, 0⟩
      | none => ⟨0, 0⟩
    let largest (value : Coord → ComplexFloat) : Float := (List.range l).foldl (fun x batch =>
      (List.range m).foldl (fun x row => (List.range n).foldl (fun x col =>
        maxNumber x (value ⟨row, col, batch⟩).norm) x) x) 0
    ∃ o', p.applyCovered? o = some o' ∧ p.applyInOnePass o = o' ∧
      Option.Rel (fun t t' => t'.Stores t (rowCoords m) fun c => t.read c + gradient c.row)
        o.biasGradient o'.biasGradient ∧
      Option.Rel (fun t t' => t'.Raised t (largest result)) o.absMaxD o'.absMaxD ∧
      Option.Rel (fun t t' => t'.Raised t
        (if p.auxIn.isNone && o.aux.isSome then largest pre else 0)) o.absMaxAux o'.absMaxAux := by
  intro factors acc combined pre result gradient largest
  -- each cell holds the values above, so its sums and maxima are those above too
  have hpre : ∀ c, (p.cell c).pre = pre c := fun _ => rfl
  have hresult : ∀ c, (p.cell c).result = result c := fun _ => rfl
  have hsum : ∀ row, p.rowGradient ⟨m, n, l⟩ row = gradient row := by
    intro row
    simp only [rowGradient, hresult, gradient]
    cases p.auxIn <;> rfl
  have hlargest : p.largestOver ⟨m, n, l⟩ Cell.result = largest result := by
    simp only [largestOver, hresult, largest]
  have hsaved : p.largestOver ⟨m, n, l⟩ Cell.pre = largest pre := by
    simp only [largestOver, hpre, largest]
  obtain ⟨-, hgradient, habsMaxD, habsMaxAux⟩ := id hcovered
  have hcells : p.cells o.d.extent = p.cells ⟨m, n, l⟩ := by rw [hextent]
  have hm : o.d.extent.rows = m := by rw [hextent]
  refine ⟨p.apply o, if_pos hcovered, p.applyInOnePass_eq o, rel_map_of_mem fun t ht => ?_,
    rel_map_of_mem fun t ht => ?_, rel_map_of_mem fun t ht => ?_⟩
  · simp only [hcells, hm, ← hsum]
    exact p.addGradients_stores (e := ⟨m, n, l⟩) (hm ▸ hgradient t ht) (hrows t ht)
  · rw [hcells, p.largest_cells, hlargest]
    exact Tensor.raised_raise (habsMaxD t ht) _
  · rw [hcells, largestSaved, p.largest_cells, hsaved]
    exact Tensor.raised_raise (habsMaxAux t ht) _

/-- A backward pass over two rows of a product, with a gradient of three. -/
def backward : FusedProduct where
  a := .zeros "A" .f32 ⟨⟨2, 3, 1⟩, ⟨3, 1, 0⟩⟩
  b := .zeros "B" .f16 ⟨⟨3, 2, 1⟩, ⟨1, 3, 0⟩⟩
  accumulator := .f32
  c := .zeros "C" .f32 ⟨⟨2, 2, 1⟩, .none⟩
  alpha := .value 1
  beta := .value 0
  auxIn := some (.zeros "Aux" .f16 ⟨⟨2, 2, 1⟩, ⟨1, 2, 0⟩⟩)
  activation := .sigmoid

/-- Its outputs. -/
def backwardOutputs : Outputs Tensor where
  d := .zeros "D" .f16 ⟨⟨2, 2, 1⟩, ⟨2, 1, 0⟩⟩
  absMaxD := some (.zeros "abs_max_D" .f32 .scalar)
  biasGradient := some (.zeros "dBias" .f32 (.vector 3))
  aux := none
  absMaxAux := none

/-- To the second row are added its two results, each with the derivative at what has been saved for
it, and the element after it keeps its value. -/
theorem applyCovered?_reductions_backward : backwardOutputs.d.extent = ⟨2, 2, 1⟩ ∧
    backward.Covered backwardOutputs ∧ ∃ saved o' t t', backward.auxIn = some saved ∧
      backward.applyCovered? backwardOutputs = some o' ∧
      backwardOutputs.biasGradient = some t ∧ o'.biasGradient = some t' ∧
      (let result (col : Nat) := (backward.combination ⟨1, col, 0⟩).scale
        (Activation.sigmoid.derivative (saved.read ⟨1, col, 0⟩).re)
      t'.read ⟨1, 0, 0⟩ = t.type.quantize (t.read ⟨1, 0, 0⟩ + (⟨0, 0⟩ + result 0 + result 1))) ∧
      t'.read ⟨2, 0, 0⟩ = t.read ⟨2, 0, 0⟩ := by
  have hcovered : backward.Covered backwardOutputs := by decide
  obtain ⟨o', happly, -, hgradient, -⟩ :=
    applyCovered?_reductions (m := 2) (n := 2) (l := 1) rfl hcovered (by decide)
  obtain ⟨t', ht', hstores⟩ := exists_of_rel_some hgradient
  exact ⟨rfl, hcovered, _, o', _, t', rfl, happly, rfl, ht', hstores.read_eq (by decide),
    hstores.read_of_forall_ne (by decide)⟩

end FusedProduct

end FusedGemm
