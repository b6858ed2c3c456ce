import FusedGemm.Config.Text
import FusedGemm.Proofs.Config.Validity
import FusedGemm.Proofs.Json.Records
import FusedGemm.Proofs.Numeric.Signs

/-!
# Configuration files are read as they were written

All fields of a configuration but one are read back from its file, whatever their values are; the
tolerance is read from the number that is written for it, if there is one (`Config.ofText?_text`).
So a configuration that has been built is read back if and only if its tolerance is
(`Config.parse_text`).  A tolerance that is no finite number passes the validation in the exact mode
and is lost (`Config.parse_text_infinite`).
-/

namespace FusedGemm

/-! ### The values of fields -/

theorem Fusion.proper_codec : Fusion.codec.Proper := by
  refine Codec.proper_record _ ?_
  simp only [Fusion.fields, List.forall_mem_cons]
  exact ⟨Field.proper_of Codec.proper_bool _, Field.proper_of Codec.proper_bool _,
    Field.proper_of Codec.proper_bool _, Field.proper_of Codec.proper_bool _,
    Field.proper_of Codec.proper_bool _, Field.proper_of Codec.proper_bool _,
    Field.proper_of Codec.proper_bool _, Field.proper_of (Codec.proper_named _ _) _, nofun⟩

theorem Fusion.exact_codec (f : Fusion) : Fusion.codec.Exact f := by
  refine (Codec.read_write_record (by decide) _ _).trans ?_
  obtain ⟨rowBias, biasGradient, rowScale, scaleFactors, auxIn, auxOut, absMax, activation⟩ := f
  cases activation <;> rfl

/-- The extents of a tile are below the limit of the address space. -/
structure Tile.Counted (t : Tile) : Prop where
  m_lt : t.m < AddressSpace.limit
  n_lt : t.n < AddressSpace.limit
  k_lt : t.k < AddressSpace.limit

theorem Tile.proper_codec : Tile.codec.Proper := by
  intro t
  refine .array ?_
  simp only [List.map_cons, List.map_nil, List.forall_mem_cons]
  exact ⟨Codec.proper_word t.m, Codec.proper_word t.n, Codec.proper_word t.k, nofun⟩

theorem Tile.exact_codec {t : Tile} (h : t.Counted) : Tile.codec.Exact t := by
  show (do return ⟨← Codec.word.read (Codec.word.write t.m),
    ← Codec.word.read (Codec.word.write t.n), ← Codec.word.read (Codec.word.write t.k)⟩) = some t
  rw [Codec.exact_word h.m_lt, Codec.exact_word h.n_lt, Codec.exact_word h.k_lt]
  rfl

namespace Config

theorem proper_seedCodec : seedCodec.Proper := fun seed => Codec.proper_word seed.toNat

theorem exact_seedCodec (seed : UInt64) : seedCodec.Exact seed := by
  show (Codec.word.read (Codec.word.write seed.toNat)).map UInt64.ofNat = some seed
  rw [Codec.exact_word seed.toNat_lt, Option.map_some, UInt64.ofNat_toNat]

theorem exact_typeCodec (t : ElementType) : typeCodec.Exact t := by
  cases t <;> rfl

theorem exact_orderCodec (order : MatrixOrder) : orderCodec.Exact order := by
  cases order <;> rfl

theorem exact_fillCodec (fill : Fill) : fillCodec.Exact fill := by
  cases fill <;> rfl

/-! ### Configurations -/

theorem proper_codec : codec.Proper := by
  refine Codec.proper_record _ ?_
  simp only [fields, List.forall_mem_cons]
  and_intros
  all_goals first
    | exact Field.proper_of (Codec.proper_named _ _) _
    | exact Field.proper_of Fusion.proper_codec _
    | exact Field.proper_of Codec.proper_float _
    | exact Field.proper_of proper_seedCodec _
    | exact Field.proper_of Tile.proper_codec _
    | exact Field.proper_of Codec.proper_optionalString _
    | exact nofun

theorem read_write_codec {config : Config} (htile : config.tile.Counted) :
    codec.read (codec.write config) =
      ((Numeral.ofFloat? config.epsilon).bind Numeral.toFloat?).map fun epsilon =>
        { config with epsilon } := by
  refine (Codec.read_write_record (by decide) _ _).trans ?_
  have hequality : (Codec.named EqualityMode.all EqualityMode.name).Exact config.equality := by
    cases config.equality <;> rfl
  have hlocation : (Codec.named ScalarLocation.all ScalarLocation.name).Exact
      config.scalarLocation := by
    cases config.scalarLocation <;> rfl
  have hscale : (Codec.named VectorScale.all VectorScale.name).Exact config.vectorScale := by
    cases config.vectorScale <;> rfl
  simp only [fields, List.foldlM_cons, List.foldlM_nil, Field.read_of_exact (exact_typeCodec _),
    Field.read_of_exact (exact_orderCodec _), Field.read_of_exact (exact_fillCodec _),
    Field.read_of_exact (exact_seedCodec _), Field.read_of_exact (Fusion.exact_codec _),
    Field.read_of_exact (Tile.exact_codec htile), Field.read_of_exact hequality,
    Field.read_of_exact hlocation, Field.read_of_exact hscale,
    Field.read_of_exact (Codec.exact_optionalString _), Field.read_of,
    Codec.read_write_float, Option.bind_eq_bind, Option.bind_some]
  cases (Numeral.ofFloat? config.epsilon).bind Numeral.toFloat? <;> rfl

/-- What is read from the file of a configuration. -/
theorem ofText?_text {config : Config} (htile : config.tile.Counted) :
    ofText? config.text = ((Numeral.ofFloat? config.epsilon).bind Numeral.toFloat?).map
      fun epsilon => { config with epsilon } := by
  unfold ofText? text
  rw [Json.parse?_text (proper_codec config), Option.bind_some, read_write_codec htile]

/-- Nothing is written for a float that is no finite number. -/
theorem ofFloat?_of_not_isFinite {x : Float} (h : x.isFinite = false) :
    Numeral.ofFloat? x = none := by
  rw [isFinite_eq] at h
  unfold Numeral.ofFloat?
  cases hvalue : FloatValue.ofFloat x with
  | nan => rfl
  | infinite negative => rfl
  | finite negative s e =>
    rw [hvalue] at h
    cases h

/-- The file of a configuration whose tolerance is no finite number is not read. -/
theorem parse_text_of_not_isFinite {config : Config} (htile : config.tile.Counted)
    (h : config.epsilon.isFinite = false) : parse config.text = .error .malformed := by
  unfold parse
  rw [ofText?_text htile, ofFloat?_of_not_isFinite h]
  rfl

end Config

/-- The float is read back from the number that is written for it. -/
def Numeral.Keeps (x : Float) : Prop := (Numeral.ofFloat? x).bind Numeral.toFloat? = some x

instance (x : Float) : Decidable (Numeral.Keeps x) := inferInstanceAs (Decidable (_ = _))

namespace Config

/-- **A configuration that has been built is read back if and only if its tolerance is.**  A
tolerance that is no finite number is not; only a configuration that compares exactly has one. -/
theorem parse_text {config : Config} {settings : List Setting} (h : build settings = .ok config)
    (htile : config.tile.Counted) :
    (parse config.text = .ok config ↔ Numeral.Keeps config.epsilon) ∧
      (config.epsilon.isFinite = false →
        config.equality = .exact ∧ parse config.text = .error .malformed) := by
  have hvalid := valid_of_build h
  refine ⟨⟨fun hparse => ?_, fun hkeeps => ?_⟩, fun hinfinite => ⟨?_, ?_⟩⟩
  · unfold parse at hparse
    rw [ofText?_text htile] at hparse
    unfold Numeral.Keeps
    cases hread : (Numeral.ofFloat? config.epsilon).bind Numeral.toFloat? with
    | none =>
      rw [hread] at hparse
      cases hparse
    | some epsilon =>
      rw [hread, Option.map_some] at hparse
      dsimp only at hparse
      cases hvalidate : ({ config with epsilon } : Config).validate with
      | error e =>
        rw [hvalidate] at hparse
        cases hparse
      | ok config' =>
        rw [hvalidate] at hparse
        obtain rfl := Except.ok.inj hparse
        exact congrArg (fun c => some c.epsilon) (validate_eq_ok hvalidate).2.symm
  · unfold parse
    rw [ofText?_text htile, hkeeps, Option.map_some]
    dsimp only
    rw [hvalid.validate_eq]
  · cases hmode : config.equality with
    | exact => rfl
    | relative =>
      rw [hvalid.isFinite_epsilon hmode] at hinfinite
      cases hinfinite
  · exact parse_text_of_not_isFinite htile hinfinite

theorem parse_text_relative :
    let settings : List Setting := [.typeD .f8e4m3,
      .fusion { absMax := true, scaleFactors := true }, .equality .relative, .epsilon 0.05]
    let config : Config := { typeD := .f8e4m3, fusion := { absMax := true, scaleFactors := true },
                             equality := .relative, epsilon := 0.05 }
    build settings = .ok config ∧ parse config.text = .ok config := by
  intro settings config
  have hbuild : build settings = .ok config := by decide +kernel
  have htile : config.tile.Counted := ⟨by decide, by decide, by decide⟩
  exact ⟨hbuild, (parse_text hbuild htile).1.mpr (by decide +kernel)⟩

/-- An infinite tolerance passes in the exact mode and is not read back. -/
theorem parse_text_infinite :
    let config : Config := { epsilon := infinity }
    build [.epsilon infinity] = .ok config ∧ parse config.text = .error .malformed :=
  ⟨by decide +kernel, parse_text_of_not_isFinite ⟨by decide, by decide, by decide⟩ (by decide)⟩

end Config

end FusedGemm
