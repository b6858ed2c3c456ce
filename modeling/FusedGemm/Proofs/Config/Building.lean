import FusedGemm.Proofs.Config.Classifying
import FusedGemm.Proofs.Config.Validity

/-!
# What settings build

A configuration is seen field by field (`Config.get`).  A setting leaves a field as it is or gives
it a value that does not depend on the configuration (`Config.apply_uniform`), so settings of
different fields can be exchanged (`Config.apply_comm`), and the order of an operand is that of the
last setting that gives one (`Config.order_foldl_apply`).

Strides are declared after all other settings.  The first one that cannot be is the fault that is
reported (`Config.foldlM_declare_eq`), and without such a fault the last stride of an operand
overrides its order (`Config.order_foldl_resolve`).  Together: `Config.build_resolves`.
-/

namespace FusedGemm

/-- A fold's last word on what can be seen of it: where each step gives what is seen or leaves it as
it is, the last given one is seen in the end. -/
theorem foldl_last_given {α β γ : Type} {step : β → α → β} (view : β → γ) {given? : α → Option γ}
    (hstep : ∀ b a, view (step b a) = (given? a).getD (view b)) (xs : List α) (b : β) :
    view (xs.foldl step b) = (xs.filterMap given?).getLast?.getD (view b) := by
  induction xs generalizing b with
  | nil => rfl
  | cons x xs ih =>
    rw [List.foldl_cons, ih, hstep]
    cases hx : given? x with
    | none => rw [List.filterMap_cons_none hx, Option.getD_none]
    | some c => rw [List.filterMap_cons_some hx, List.getLast?_cons, Option.getD_some,
        Option.getD_some]

/-! ### Operands -/

/-- The operands whose order can be declared by a stride. -/
inductive Operand where
  | a
  | b
  | c
  | d
  | aux
  deriving DecidableEq

namespace Operand

/-- All operands. -/
def all : List Operand := [.a, .b, .c, .d, .aux]

/-- The name by which a stride is declared for an operand. -/
def name : Operand → String
  | .a => "A"
  | .b => "B"
  | .c => "C"
  | .d => "D"
  | .aux => "Aux"

/-- The operand with a name. -/
def named? (name : String) : Option Operand := all.find? fun operand => operand.name = name

theorem named?_eq_some_iff {name : String} {operand : Operand} :
    named? name = some operand ↔ name = operand.name := by
  constructor
  · intro h
    have hname := List.find?_some h
    exact (of_decide_eq_true hname).symm
  · rintro rfl
    cases operand <;> decide

end Operand

namespace Config

/-- The order of an operand. -/
def order (config : Config) : Operand → MatrixOrder
  | .a => config.orderA
  | .b => config.orderB
  | .c => config.orderC
  | .d => config.orderD
  | .aux => config.orderAux

/-- The configuration with another order of an operand. -/
def withOrder (config : Config) (operand : Operand) (order : MatrixOrder) : Config :=
  match operand with
  | .a => { config with orderA := order }
  | .b => { config with orderB := order }
  | .c => { config with orderC := order }
  | .d => { config with orderD := order }
  | .aux => { config with orderAux := order }

theorem order_withOrder (config : Config) (operand operand' : Operand) (order : MatrixOrder) :
    (config.withOrder operand order).order operand' =
      if operand = operand' then order else config.order operand' := by
  cases operand <;> cases operand' <;> rfl

theorem orderSetter?_eq (config : Config) (name : String) :
    config.orderSetter? name = (Operand.named? name).map config.withOrder := by
  unfold orderSetter? Operand.named?
  split_ifs with ha hb hc hd haux
  · rw [ha]
    rfl
  · rw [hb]
    rfl
  · rw [hc]
    rfl
  · rw [hd]
    rfl
  · rw [haux]
    rfl
  · have hnone : Operand.all.find? (fun operand => operand.name = name) = none := by
      simp [Operand.all, Operand.name, Ne.symm ha, Ne.symm hb, Ne.symm hc, Ne.symm hd,
        Ne.symm haux]
    rw [hnone]
    rfl

end Config

/-! ### Fields -/

/-- The fields of a configuration. -/
inductive ConfigField where
  | typeA
  | typeB
  | typeC
  | typeD
  | typeAccumulator
  | typeScalar
  | typeBias
  | typeAux
  | typeAbsMax
  | order (operand : Operand)
  | fusion
  | equality
  | epsilon
  | scalarLocation
  | vectorScale
  | fillA
  | fillB
  | fillC
  | fillScale
  | fillBias
  | seed
  | tile
  | dumpDirectory

/-- What a field holds. -/
def ConfigField.Value : ConfigField → Type
  | .typeA | .typeB | .typeC | .typeD | .typeAccumulator | .typeScalar | .typeBias | .typeAux
  | .typeAbsMax => ElementType
  | .order _ => MatrixOrder
  | .fusion => Fusion
  | .equality => EqualityMode
  | .epsilon => Float
  | .scalarLocation => ScalarLocation
  | .vectorScale => VectorScale
  | .fillA | .fillB | .fillC | .fillScale | .fillBias => Fill
  | .seed => UInt64
  | .tile => Tile
  | .dumpDirectory => Option String

namespace Config

/-- The value of a field. -/
def get (config : Config) : (field : ConfigField) → field.Value
  | .typeA => config.typeA
  | .typeB => config.typeB
  | .typeC => config.typeC
  | .typeD => config.typeD
  | .typeAccumulator => config.typeAccumulator
  | .typeScalar => config.typeScalar
  | .typeBias => config.typeBias
  | .typeAux => config.typeAux
  | .typeAbsMax => config.typeAbsMax
  | .order operand => config.order operand
  | .fusion => config.fusion
  | .equality => config.equality
  | .epsilon => config.epsilon
  | .scalarLocation => config.scalarLocation
  | .vectorScale => config.vectorScale
  | .fillA => config.fillA
  | .fillB => config.fillB
  | .fillC => config.fillC
  | .fillScale => config.fillScale
  | .fillBias => config.fillBias
  | .seed => config.seed
  | .tile => config.tile
  | .dumpDirectory => config.dumpDirectory

/-- There is nothing more to a configuration than its fields. -/
theorem ext_get {config config' : Config} (h : ∀ field, config.get field = config'.get field) :
    config = config' := by
  have horder : ∀ operand, config.order operand = config'.order operand :=
    fun operand => h (.order operand)
  cases config
  cases config'
  simp only [mk.injEq]
  exact ⟨h .typeA, h .typeB, h .typeC, h .typeD, h .typeAccumulator, h .typeScalar, h .typeBias,
    h .typeAux, h .typeAbsMax, horder .a, horder .b, horder .c, horder .d, horder .aux, h .fusion,
    h .equality, h .epsilon, h .scalarLocation, h .vectorScale, h .fillA, h .fillB, h .fillC,
    h .fillScale, h .fillBias, h .seed, h .tile, h .dumpDirectory⟩

/-- **A setting leaves a field as it is or gives it a value of its own.** -/
theorem apply_uniform (setting : Setting) (field : ConfigField) :
    (∀ config : Config, (config.apply setting).get field = config.get field) ∨
      ∀ config config' : Config,
        (config.apply setting).get field = (config'.apply setting).get field := by
  cases setting <;> rcases field with _ | _ | _ | _ | _ | _ | _ | _ | _ | operand <;>
    first
    | exact Or.inl fun _ => rfl
    | exact Or.inr fun _ _ => rfl
    | (cases operand <;> first | exact Or.inl fun _ => rfl | exact Or.inr fun _ _ => rfl)

end Config

namespace Setting

variable {s t : Setting}

/-- The setting can change the field. -/
def Sets (setting : Setting) (field : ConfigField) : Prop :=
  ∃ config : Config, (config.apply setting).get field ≠ config.get field

/-- No field is set by both. -/
def Apart (s t : Setting) : Prop := ∀ field, s.Sets field → ¬ t.Sets field

theorem get_apply_of_not_sets {field : ConfigField} (h : ¬ s.Sets field) (config : Config) :
    (config.apply s).get field = config.get field :=
  Classical.byContradiction fun hne => h ⟨config, hne⟩

theorem get_apply_of_sets {field : ConfigField} (h : s.Sets field) (config config' : Config) :
    (config.apply s).get field = (config'.apply s).get field := by
  rcases Config.apply_uniform s field with hkept | hgiven
  · obtain ⟨start, hne⟩ := h
    exact absurd (hkept start) hne
  · exact hgiven config config'

end Setting

namespace Config

/-- **Settings of different fields can be exchanged.** -/
theorem apply_comm {s t : Setting} (h : s.Apart t) (config : Config) :
    (config.apply s).apply t = (config.apply t).apply s := by
  refine ext_get fun field => ?_
  by_cases hs : s.Sets field
  · rw [Setting.get_apply_of_not_sets (h field hs), Setting.get_apply_of_sets hs]
  · rw [Setting.get_apply_of_not_sets hs]
    by_cases ht : t.Sets field
    · exact Setting.get_apply_of_sets ht _ _
    · rw [Setting.get_apply_of_not_sets ht, Setting.get_apply_of_not_sets ht,
        Setting.get_apply_of_not_sets hs]

end Config

/-! ### Orders that settings give -/

namespace Setting

/-- The stride that a setting declares. -/
def stride? : Setting → Option (String × Stride)
  | .stride name declared => some (name, declared)
  | _ => none

/-- The order that a setting gives an operand by a tag. -/
def givenOrder? (operand : Operand) : Setting → Option MatrixOrder
  | .orders a b c d => match operand with
    | .a => some a
    | .b => some b
    | .c => some c
    | .d => some d
    | .aux => none
  | .orderAux order => if operand = .aux then some order else none
  | _ => none

/-- The order that a setting gives an operand by a stride. -/
def declaredOrder? (operand : Operand) : Setting → Option MatrixOrder
  | .stride name declared => if name = operand.name then MatrixOrder.ofStride? declared else none
  | _ => none

/-- Why a declared stride is refused. -/
def fault? : Setting → Option ConfigError
  | .stride name declared =>
    if Operand.named? name = none then some (.unknownOperand name)
    else if declared.row ≠ 1 ∧ declared.col ≠ 1 then some (.unsupportedStride name declared)
    else none
  | _ => none

end Setting

namespace Config

/-- The order of an operand is the one given last by a tag. -/
theorem order_foldl_apply (config : Config) (settings : List Setting) (operand : Operand) :
    (settings.foldl apply config).order operand =
      (settings.filterMap (Setting.givenOrder? operand)).getLast?.getD (config.order operand) := by
  refine foldl_last_given (fun config => config.order operand)
    (fun config setting => ?_) settings config
  cases setting
  case orders a b c d => cases operand <;> rfl
  case orderAux order => cases operand <;> rfl
  all_goals cases operand <;> rfl

/-- The configuration with the order that a setting declares, if it does. -/
def resolve (config : Config) : Setting → Config
  | .stride name declared => match Operand.named? name, MatrixOrder.ofStride? declared with
    | some operand, some order => config.withOrder operand order
    | _, _ => config
  | _ => config

theorem order_resolve (config : Config) (setting : Setting) (operand : Operand) :
    (config.resolve setting).order operand =
      (setting.declaredOrder? operand).getD (config.order operand) := by
  cases setting
  case stride name declared =>
    unfold resolve Setting.declaredOrder?
    dsimp only
    cases hnamed : Operand.named? name with
    | none =>
      have hne : name ≠ operand.name := fun heq => by
        rw [Operand.named?_eq_some_iff.mpr heq] at hnamed
        cases hnamed
      rw [if_neg hne]
      rfl
    | some found =>
      obtain rfl := Operand.named?_eq_some_iff.mp hnamed
      cases MatrixOrder.ofStride? declared with
      | none => split_ifs <;> rfl
      | some order =>
        dsimp only
        rw [order_withOrder]
        by_cases heq : found = operand
        · rw [if_pos heq, heq, if_pos rfl, Option.getD_some]
        · have hname : found.name ≠ operand.name := fun hsame => heq <| Option.some.inj <|
            hnamed.symm.trans (Operand.named?_eq_some_iff.mpr hsame)
          rw [if_neg heq, if_neg hname, Option.getD_none]
  all_goals rfl

/-- **The order of an operand is the one declared last by a stride.** -/
theorem order_foldl_resolve (config : Config) (settings : List Setting) (operand : Operand) :
    (settings.foldl resolve config).order operand =
      (settings.filterMap (Setting.declaredOrder? operand)).getLast?.getD (config.order operand) :=
  foldl_last_given (fun config => config.order operand)
    (fun config setting => order_resolve config setting operand) settings config

/-- A declared stride is refused for its fault, or else its order is taken. -/
theorem declare_eq (config : Config) (name : String) (declared : Stride) :
    config.declare (name, declared) = match (Setting.stride name declared).fault? with
      | some e => .error e
      | none => .ok (config.resolve (.stride name declared)) := by
  unfold declare resolve Setting.fault?
  dsimp only
  rw [orderSetter?_eq]
  cases hnamed : Operand.named? name with
  | none => rfl
  | some operand =>
    rw [if_neg (by simp)]
    unfold MatrixOrder.classify
    cases horder : MatrixOrder.ofStride? declared with
    | none =>
      rw [if_pos (MatrixOrder.ofStride?_eq_none_iff.mp horder)]
      rfl
    | some order =>
      have hunit : ¬ (declared.row ≠ 1 ∧ declared.col ≠ 1) := fun h => by
        rw [MatrixOrder.ofStride?_eq_none_iff.mpr h] at horder
        cases horder
      rw [if_neg hunit]
      rfl

/-- **Declared strides are resolved one after the other, or the first fault is reported.** -/
theorem foldlM_declare_eq (config : Config) (settings : List Setting) :
    (declaredStrides settings).foldlM declare config =
      match settings.findSome? Setting.fault? with
      | some e => .error e
      | none => .ok (settings.foldl resolve config) := by
  induction settings generalizing config with
  | nil => rfl
  | cons setting rest ih =>
    cases setting
    case stride name declared =>
      show (config.declare (name, declared) >>= fun config' =>
        (declaredStrides rest).foldlM declare config') = _
      rw [declare_eq, List.findSome?_cons]
      cases (Setting.stride name declared).fault? with
      | some e => rfl
      | none => exact ih _
    all_goals exact ih config

theorem declaredStrides_eq (settings : List Setting) :
    declaredStrides settings = settings.filterMap Setting.stride? := rfl

/-- What settings build: the first fault of a declared stride, or else what validation makes of the
configuration. -/
theorem build_eq (settings : List Setting) :
    build settings = match settings.findSome? Setting.fault? with
      | some e => .error e
      | none => (settings.foldl resolve (settings.foldl apply {})).validate := by
  unfold build
  rw [foldlM_declare_eq]
  cases settings.findSome? Setting.fault? <;> rfl

/-- **What settings build.**  The first stride that cannot be declared is reported, whatever else
there is.  Without one, validation decides on the configuration in which the order of each operand
is the one declared last by a stride, or else the one given last by a tag, or else the one from the
start, and nothing but this configuration is built.  Two settings of different fields can be
exchanged anywhere, unless both declare strides. -/
theorem build_resolves (settings : List Setting) :
    (∀ e, settings.findSome? Setting.fault? = some e → build settings = .error e) ∧
    (settings.findSome? Setting.fault? = none → ∃ config : Config,
      build settings = config.validate ∧ (∀ built, build settings = .ok built → built = config) ∧
      ∀ operand, config.order operand =
        (settings.filterMap (Setting.declaredOrder? operand)).getLast?.getD
          ((settings.filterMap (Setting.givenOrder? operand)).getLast?.getD
            (({} : Config).order operand))) ∧
    ∀ s t : Setting, s.stride? = none ∨ t.stride? = none → s.Apart t →
      (∀ config : Config, (config.apply s).apply t = (config.apply t).apply s) ∧
      ∀ later, build (settings ++ s :: t :: later) = build (settings ++ t :: s :: later) := by
  refine ⟨fun e h => ?_, fun h => ?_, fun s t hstride hapart => ?_⟩
  · rw [build_eq, h]
  · have hbuild : build settings =
        (settings.foldl resolve (settings.foldl apply {})).validate := by rw [build_eq, h]
    refine ⟨_, hbuild, fun built hbuilt => ?_, fun operand => ?_⟩
    · exact (validate_eq_ok (hbuild.symm.trans hbuilt)).2
    · rw [order_foldl_resolve, order_foldl_apply]
  · refine ⟨apply_comm hapart, fun later => ?_⟩
    have hdeclared : declaredStrides (settings ++ s :: t :: later) =
        declaredStrides (settings ++ t :: s :: later) := by
      rw [declaredStrides_eq, declaredStrides_eq, List.filterMap_append, List.filterMap_append]
      rcases hstride with hnone | hnone <;> simp only [List.filterMap_cons, hnone]
    unfold build
    rw [hdeclared, List.foldl_append, List.foldl_append, List.foldl_cons, List.foldl_cons,
      List.foldl_cons, List.foldl_cons, apply_comm hapart]

/-- Two strides that cannot be declared, after features that exclude each other. -/
def refused : List Setting :=
  [.fusion { rowBias := true, biasGradient := true }, .stride "C" ⟨2, 2, 16⟩,
    .stride "a" ⟨64, 1, 4096⟩]

/-- Two strides of one operand before a tag for it. -/
def overridden : List Setting :=
  [.stride "A" ⟨64, 1, 4096⟩, .orderAux .columnMajor, .stride "A" ⟨1, 64, 4096⟩,
    .orders .rowMajor .rowMajor .rowMajor .rowMajor]

/-- The earlier stride is reported, the later one overrides, and tags of the auxiliary tensor and of
the others can be exchanged. -/
theorem build_resolves_overridden :
    build refused = .error (.unsupportedStride "C" ⟨2, 2, 16⟩) ∧
    (∃ config : Config, build overridden = .ok config ∧ config.order .a = .columnMajor ∧
      config.order .b = .rowMajor ∧ config.order .aux = .columnMajor) ∧
    (Setting.orderAux .columnMajor).Apart (.orders .rowMajor .rowMajor .rowMajor .rowMajor) ∧
    build (refused ++
        [.orderAux .columnMajor, .orders .rowMajor .rowMajor .rowMajor .rowMajor]) =
      build (refused ++
        [.orders .rowMajor .rowMajor .rowMajor .rowMajor, .orderAux .columnMajor]) := by
  have hapart : (Setting.orderAux .columnMajor).Apart
      (.orders .rowMajor .rowMajor .rowMajor .rowMajor) := by
    rintro field ⟨_, hs⟩ ⟨_, ht⟩
    rcases field with _ | _ | _ | _ | _ | _ | _ | _ | _ | operand
    case order => cases operand <;> first | exact hs rfl | exact ht rfl
    all_goals exact hs rfl
  obtain ⟨hrefused, -, hexchange⟩ := build_resolves refused
  obtain ⟨built, hbuilt⟩ : ∃ built, build overridden = .ok built := ⟨_, rfl⟩
  obtain ⟨config, -, honly, horder⟩ := (build_resolves overridden).2.1 rfl
  obtain rfl := honly built hbuilt
  exact ⟨hrefused _ rfl, ⟨built, hbuilt, (horder .a).trans rfl, (horder .b).trans rfl,
    (horder .aux).trans rfl⟩, hapart, (hexchange _ _ (.inl rfl) hapart).2 []⟩

end Config

end FusedGemm
