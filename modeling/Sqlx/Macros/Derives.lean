import Mathlib.Data.List.Nodup

/-
  Sqlx.Macros.Derives — `#[derive(sqlx::Type)]` (`sqlx-macros/src/derives/type.rs`) and the
  derive of all three of `Type`, `Encode` and `Decode` (`derives/mod.rs`).

  `expand_derive_type` parses the container attributes, then dispatches on the shape of the
  input: a struct of one unnamed field is transparent (its `type_info` is the field type's), an
  enum with a `repr` is weak (the repr's), an enum without one is strong, and a struct of named
  fields is a composite; the two last get `type_info` from the Postgres type's oid, and a strong
  enum gets MySQL's `str` one too. Unions, unit structs and structs of zero or several unnamed
  fields are rejected. A token stream is modelled as the items it holds; the `impl`s of
  `sqlx::Type` are kept whole. `derives/attributes.rs`, `encode.rs` and `decode.rs` are not in
  src/: the attribute parser and checks (`AttributeChecks`) and the encode and decode derives
  are parameters, and `cfg!(feature = ..)` is a parameter for each feature.

  Proved:
  - `expandDeriveType_coherent`: what the derive emits is `impl`s of `sqlx::Type` for the input's
    type, for the databases its shape gives (`derivedDatabases`): one generic over the database
    for a transparent struct or an enum with a `repr`, MySQL's then Postgres's for an enum
    without one, Postgres's for a composite; so Rust accepts them together.
  - `expandDeriveTypeEncodeDecode_coherent`: so is what the three derives emit together, when
    the encode and decode derives emit no `impl` of `sqlx::Type`.
-/

namespace Sqlx.Macros

/-- `syn::Error::new_spanned(input, message)`, spanned at the input, named by its identifier. -/
structure SynError where
  span : String
  message : String
  deriving DecidableEq, Repr

/-- A `syn::Field`: its type is what the derive reads. -/
structure Field where
  ty : String
  deriving DecidableEq, Repr

inductive Fields where
  | named (named : List Field)
  | unnamed (unnamed : List Field)
  | unit
  deriving DecidableEq, Repr

inductive Data where
  | struct (fields : Fields)
  | enum (variants : List String)
  | union
  deriving DecidableEq, Repr

inductive WherePredicate where
  /-- `#ty: sqlx::types::Type<DB>`. -/
  | typeBound (ty : String)
  | other (tokens : String)
  deriving DecidableEq, Repr

structure Generics where
  params : List String
  predicates : List WherePredicate
  deriving DecidableEq, Repr

structure DeriveInput where
  attrs : List String
  ident : String
  generics : Generics
  data : Data
  deriving DecidableEq, Repr

/-- What the attribute parser and checks return that this file reads. -/
structure ContainerAttributes where
  repr : Option String
  postgresOid : Option UInt32
  deriving DecidableEq, Repr

/-- `derives/attributes.rs`: `parse_container_attributes` and the `check_*` functions. -/
structure AttributeChecks where
  parseContainerAttributes : List String → Except SynError ContainerAttributes
  checkTransparentAttributes : DeriveInput → Field → Except SynError Unit
  checkWeakEnumAttributes : DeriveInput → List String → Except SynError ContainerAttributes
  checkStrongEnumAttributes : DeriveInput → List String → Except SynError ContainerAttributes
  checkStructAttributes : DeriveInput → List Field → Except SynError ContainerAttributes

/-- The database an `impl sqlx::Type<..>` is for: its own parameter `DB`, or one database. -/
inductive Database where
  | generic
  | mySql
  | postgres
  deriving DecidableEq, Repr

/-- What `type_info` returns. -/
inductive TypeInfoSource where
  /-- `<#ty as sqlx::Type<DB>>::type_info()`. -/
  | typeInfoOf (ty : String)
  /-- `sqlx::postgres::PgTypeInfo::with_oid(#oid)`. -/
  | withOid (oid : UInt32)
  deriving DecidableEq, Repr

/-- `impl #impl_generics sqlx::Type<database> for #ident #ty_generics #where_clause`. -/
structure TypeImpl where
  database : Database
  generics : Generics
  ident : String
  tyGenerics : List String
  typeInfo : TypeInfoSource
  deriving DecidableEq, Repr

/-- An item of a token stream: an `impl` of `sqlx::Type`, or tokens another derive emits. -/
inductive Item where
  | typeImpl (impl : TypeImpl)
  | other (tokens : String)
  deriving DecidableEq, Repr

section Expand

variable (checks : AttributeChecks) (mysql postgres : Bool)

def expandDeriveHasSqlTypeTransparent (input : DeriveInput) (field : Field) : Except SynError (List Item) :=
  match checks.checkTransparentAttributes input field with
  | .error e => .error e
  | .ok () =>
    .ok [.typeImpl ⟨.generic,
      ⟨"DB: sqlx::Database" :: input.generics.params, input.generics.predicates ++ [.typeBound field.ty]⟩,
      input.ident, input.generics.params, .typeInfoOf field.ty⟩]

/-- `none`: `attr.repr.unwrap()` panics. -/
def expandDeriveHasSqlTypeWeakEnum (input : DeriveInput) (variants : List String) :
    Option (Except SynError (List Item)) :=
  match checks.checkWeakEnumAttributes input variants with
  | .error e => some (.error e)
  | .ok attr =>
    attr.repr.map fun repr =>
      .ok [.typeImpl ⟨.generic, ⟨["DB: sqlx::Database"], [.typeBound repr]⟩, input.ident, [], .typeInfoOf repr⟩]

/-- `none`: `attributes.postgres_oid.unwrap()` panics. -/
def expandDeriveHasSqlTypeStrongEnum (input : DeriveInput) (variants : List String) :
    Option (Except SynError (List Item)) :=
  match checks.checkStrongEnumAttributes input variants with
  | .error e => some (.error e)
  | .ok attributes =>
    let tts : List Item := if mysql then [.typeImpl ⟨.mySql, ⟨[], []⟩, input.ident, [], .typeInfoOf "str"⟩] else []
    if postgres then
      attributes.postgresOid.map fun oid => .ok (tts ++ [.typeImpl ⟨.postgres, ⟨[], []⟩, input.ident, [], .withOid oid⟩])
    else some (.ok tts)

/-- `none`: `attributes.postgres_oid.unwrap()` panics. -/
def expandDeriveHasSqlTypeStruct (input : DeriveInput) (fields : List Field) : Option (Except SynError (List Item)) :=
  match checks.checkStructAttributes input fields with
  | .error e => some (.error e)
  | .ok attributes =>
    if postgres then
      attributes.postgresOid.map fun oid => .ok [.typeImpl ⟨.postgres, ⟨[], []⟩, input.ident, [], .withOid oid⟩]
    else some (.ok [])

/-- `expand_derive_type`; `none` is a panic. -/
def expandDeriveType (input : DeriveInput) : Option (Except SynError (List Item)) :=
  match checks.parseContainerAttributes input.attrs with
  | .error e => some (.error e)
  | .ok attrs =>
    match input.data with
    | .struct (.unnamed [field]) => some (expandDeriveHasSqlTypeTransparent checks input field)
    | .enum variants =>
      match attrs.repr with
      | some _ => expandDeriveHasSqlTypeWeakEnum checks input variants
      | none => expandDeriveHasSqlTypeStrongEnum checks mysql postgres input variants
    | .struct (.named named) => expandDeriveHasSqlTypeStruct checks postgres input named
    | .union => some (.error ⟨input.ident, "unions are not supported"⟩)
    | .struct (.unnamed _) =>
      some (.error ⟨input.ident, "structs with zero or more than one unnamed field are not supported"⟩)
    | .struct .unit => some (.error ⟨input.ident, "unit structs are not supported"⟩)

/-- `expand_derive_type_encode_decode`: the three derives' items in order, or the first error. -/
def expandDeriveTypeEncodeDecode (expandDeriveEncode expandDeriveDecode : DeriveInput → Except SynError (List Item))
    (input : DeriveInput) : Option (Except SynError (List Item)) :=
  match expandDeriveEncode input with
  | .error e => some (.error e)
  | .ok encodeTts =>
    match expandDeriveDecode input with
    | .error e => some (.error e)
    | .ok decodeTts => (expandDeriveType checks mysql postgres input).map fun r => r.map (encodeTts ++ decodeTts ++ ·)

end Expand

/-! ## The emitted impls -/

/-- The `impl`s of `sqlx::Type` in a token stream. -/
def typeImpls : List Item → List TypeImpl :=
  List.filterMap fun
    | .typeImpl i => some i
    | .other _ => none

/-- `impl`s of `sqlx::Type` for one type that Rust accepts together: one generic over `DB`, or at
    most one for each database. -/
def Coherent (impls : List TypeImpl) : Prop :=
  (∃ i, impls = [i] ∧ i.database = .generic) ∨
    ((impls.map TypeImpl.database).Nodup ∧ ∀ i ∈ impls, i.database ≠ .generic)

/-- Every item is an `impl` of `sqlx::Type` for `ident`, and their databases, in order, are `dbs`. -/
def ImplsOn (ident : String) (dbs : List Database) (items : List Item) : Prop :=
  (∀ it ∈ items, ∃ i, it = .typeImpl i ∧ i.ident = ident) ∧ (typeImpls items).map TypeImpl.database = dbs

/-- The databases `expand_derive_type` implements `sqlx::Type` for, by the input's shape and the
    `repr` the container attributes give. -/
def derivedDatabases (mysql postgres : Bool) (repr : Option String) : Data → List Database
  | .struct (.unnamed [_]) => [.generic]
  | .enum _ =>
    if repr.isSome then [.generic] else (if mysql then [.mySql] else []) ++ (if postgres then [.postgres] else [])
  | .struct (.named _) => if postgres then [.postgres] else []
  | _ => []

section Emitted

variable {checks : AttributeChecks} {mysql postgres : Bool} {input : DeriveInput} {items : List Item}

theorem coherent_of_databases {impls : List TypeImpl} {dbs : List Database} (h : impls.map TypeImpl.database = dbs)
    (hdbs : dbs = [.generic] ∨ (dbs.Nodup ∧ .generic ∉ dbs)) : Coherent impls := by
  rcases hdbs with rfl | ⟨hnd, hg⟩
  · obtain ⟨i, l, rfl, hi, hl⟩ := List.map_eq_cons_iff.mp h
    exact .inl ⟨i, by rw [List.map_eq_nil_iff.mp hl], hi⟩
  · subst h
    exact .inr ⟨hnd, fun i hi hgi => hg (hgi ▸ List.mem_map_of_mem _ hi)⟩

/-- Every shape's databases are one generic `impl` or distinct databases. -/
theorem derivedDatabases_shape (repr : Option String) (data : Data) :
    derivedDatabases mysql postgres repr data = [.generic] ∨
      ((derivedDatabases mysql postgres repr data).Nodup ∧ .generic ∉ derivedDatabases mysql postgres repr data) := by
  unfold derivedDatabases
  split
  · exact .inl rfl
  · split
    · exact .inl rfl
    · exact .inr (by cases mysql <;> cases postgres <;> simp)
  · exact .inr (by cases postgres <;> simp)
  · exact .inr (by simp)

theorem implsOn_generic {ident : String} (i : TypeImpl) (hi : i.ident = ident) (hd : i.database = .generic) :
    ImplsOn ident [.generic] [.typeImpl i] :=
  ⟨by simpa using hi, by simp [typeImpls, hd]⟩

/-- The strong enum's and the composite's items: MySQL's if asked for, then Postgres's. -/
theorem implsOn_databases (ident : String) (m p : Bool) (oid : UInt32) :
    ImplsOn ident ((if m then [.mySql] else []) ++ (if p then [.postgres] else []))
      ((if m then [.typeImpl ⟨.mySql, ⟨[], []⟩, ident, [], .typeInfoOf "str"⟩] else []) ++
        (if p then [.typeImpl ⟨.postgres, ⟨[], []⟩, ident, [], .withOid oid⟩] else [])) := by
  constructor <;> cases m <;> cases p <;> simp [typeImpls]

theorem transparent_implsOn {field : Field} (h : expandDeriveHasSqlTypeTransparent checks input field = .ok items) :
    ImplsOn input.ident [.generic] items := by
  unfold expandDeriveHasSqlTypeTransparent at h
  cases hc : checks.checkTransparentAttributes input field with
  | error e => simp [hc] at h
  | ok u =>
    simp only [hc, Except.ok.injEq] at h
    subst h
    exact implsOn_generic _ rfl rfl

theorem weakEnum_implsOn {variants : List String}
    (h : expandDeriveHasSqlTypeWeakEnum checks input variants = some (.ok items)) :
    ImplsOn input.ident [.generic] items := by
  unfold expandDeriveHasSqlTypeWeakEnum at h
  cases hc : checks.checkWeakEnumAttributes input variants with
  | error e => simp [hc] at h
  | ok a =>
    obtain ⟨repr, -, hitems⟩ := Option.map_eq_some'.mp (by simpa [hc] using h)
    subst hitems
    exact implsOn_generic _ rfl rfl

theorem strongEnum_implsOn {variants : List String}
    (h : expandDeriveHasSqlTypeStrongEnum checks mysql postgres input variants = some (.ok items)) :
    ImplsOn input.ident ((if mysql then [.mySql] else []) ++ (if postgres then [.postgres] else [])) items := by
  unfold expandDeriveHasSqlTypeStrongEnum at h
  cases hc : checks.checkStrongEnumAttributes input variants with
  | error e => simp [hc] at h
  | ok a =>
    cases postgres
    · simp only [hc, if_false, Option.some.injEq, Except.ok.injEq, Bool.false_eq_true] at h
      subst h
      simpa using implsOn_databases input.ident mysql false 0
    · obtain ⟨oid, -, hitems⟩ := Option.map_eq_some'.mp (by simpa [hc] using h)
      subst hitems
      simpa using implsOn_databases input.ident mysql true oid

theorem struct_implsOn {fields : List Field}
    (h : expandDeriveHasSqlTypeStruct checks postgres input fields = some (.ok items)) :
    ImplsOn input.ident (if postgres then [.postgres] else []) items := by
  unfold expandDeriveHasSqlTypeStruct at h
  cases hc : checks.checkStructAttributes input fields with
  | error e => simp [hc] at h
  | ok a =>
    cases postgres
    · simp only [hc, if_false, Option.some.injEq, Except.ok.injEq, Bool.false_eq_true] at h
      subst h
      simpa using implsOn_databases input.ident false false 0
    · obtain ⟨oid, -, hitems⟩ := Option.map_eq_some'.mp (by simpa [hc] using h)
      subst hitems
      simpa using implsOn_databases input.ident false true oid

/-- What the derive emits, shape by shape. -/
theorem expandDeriveType_implsOn (h : expandDeriveType checks mysql postgres input = some (.ok items)) :
    ∃ attrs, checks.parseContainerAttributes input.attrs = .ok attrs ∧
      ImplsOn input.ident (derivedDatabases mysql postgres attrs.repr input.data) items := by
  unfold expandDeriveType at h
  cases hp : checks.parseContainerAttributes input.attrs with
  | error e => simp [hp] at h
  | ok attrs =>
    rw [hp] at h
    refine ⟨attrs, rfl, ?_⟩
    cases hd : input.data with
    | union => simp [hd] at h
    | enum variants =>
      cases hr : attrs.repr <;> simp only [hd, hr] at h <;> simp only [derivedDatabases, hr, Option.isSome]
      · exact strongEnum_implsOn h
      · exact weakEnum_implsOn h
    | struct fields =>
      rcases fields with named | (_ | ⟨field, _ | ⟨_, _⟩⟩) | _ <;> simp only [hd, Option.some.injEq] at h
      · exact struct_implsOn h
      · cases h
      · exact transparent_implsOn h
      · cases h
      · cases h

/-- What `#[derive(sqlx::Type)]` emits, by the input's shape: only `impl`s of `sqlx::Type` for the
    input's type, for the databases `derivedDatabases` gives — one `impl` generic over the database
    for a transparent struct and for an enum with a `repr`; MySQL's then Postgres's, each with its
    feature, for an enum without one; Postgres's, with its feature, for a struct of named fields —
    so Rust accepts them together. -/
theorem expandDeriveType_coherent (h : expandDeriveType checks mysql postgres input = some (.ok items)) :
    ∃ attrs, checks.parseContainerAttributes input.attrs = .ok attrs ∧
      ImplsOn input.ident (derivedDatabases mysql postgres attrs.repr input.data) items ∧ Coherent (typeImpls items) := by
  obtain ⟨attrs, hp, hon⟩ := expandDeriveType_implsOn h
  exact ⟨attrs, hp, hon, coherent_of_databases hon.2 (derivedDatabases_shape _ _)⟩

/-- Checks that accept every input, reading a weak enum's `repr` as `i32` and every oid as `1`. -/
def acceptingChecks : AttributeChecks :=
  ⟨fun _ => .ok ⟨none, some 1⟩, fun _ _ => .ok (), fun _ _ => .ok ⟨some "i32", none⟩, fun _ _ => .ok ⟨none, some 1⟩,
    fun _ _ => .ok ⟨none, some 1⟩⟩

/-- A strong enum with both features: MySQL's `impl`, then Postgres's. -/
theorem expandDeriveType_coherent_on_strong_enum :
    expandDeriveType acceptingChecks true true ⟨[], "Mood", ⟨[], []⟩, .enum ["sad", "happy"]⟩ =
        some (.ok [.typeImpl ⟨.mySql, ⟨[], []⟩, "Mood", [], .typeInfoOf "str"⟩,
          .typeImpl ⟨.postgres, ⟨[], []⟩, "Mood", [], .withOid 1⟩]) ∧
      ∃ attrs, acceptingChecks.parseContainerAttributes [] = .ok attrs ∧
        ImplsOn "Mood" (derivedDatabases true true attrs.repr (.enum ["sad", "happy"]))
          [.typeImpl ⟨.mySql, ⟨[], []⟩, "Mood", [], .typeInfoOf "str"⟩, .typeImpl ⟨.postgres, ⟨[], []⟩, "Mood", [], .withOid 1⟩] ∧
        Coherent (typeImpls [.typeImpl ⟨.mySql, ⟨[], []⟩, "Mood", [], .typeInfoOf "str"⟩,
          .typeImpl ⟨.postgres, ⟨[], []⟩, "Mood", [], .withOid 1⟩]) :=
  ⟨rfl, @expandDeriveType_coherent acceptingChecks true true ⟨[], "Mood", ⟨[], []⟩, .enum ["sad", "happy"]⟩ _ rfl⟩

theorem mem_typeImpls {i : TypeImpl} {l : List Item} : i ∈ typeImpls l ↔ .typeImpl i ∈ l := by
  simp only [typeImpls, List.mem_filterMap]
  constructor
  · rintro ⟨(j | _), hj, h⟩
    · exact Option.some_inj.mp h ▸ hj
    · cases h
  · exact fun h => ⟨_, h, rfl⟩

/-- The three derives together: if the encode and decode derives emit no `impl` of `sqlx::Type`,
    the `impl`s of `sqlx::Type` in what they emit are the type derive's: coherent, and for the
    input's type. -/
theorem expandDeriveTypeEncodeDecode_coherent {encode decode : DeriveInput → Except SynError (List Item)}
    (hencode : ∀ tts, encode input = .ok tts → typeImpls tts = [])
    (hdecode : ∀ tts, decode input = .ok tts → typeImpls tts = [])
    (h : expandDeriveTypeEncodeDecode checks mysql postgres encode decode input = some (.ok items)) :
    Coherent (typeImpls items) ∧ ∀ i ∈ typeImpls items, i.ident = input.ident := by
  unfold expandDeriveTypeEncodeDecode at h
  cases he : encode input with
  | error e => simp [he] at h
  | ok encodeTts =>
    cases hd : decode input with
    | error e => simp [he, hd] at h
    | ok decodeTts =>
      simp only [he, hd] at h
      obtain ⟨r, hr, hitems⟩ := Option.map_eq_some'.mp h
      cases r with
      | error e => cases hitems
      | ok typeTts =>
        cases hitems
        obtain ⟨attrs, -, hty⟩ := expandDeriveType_implsOn hr
        have himpls : typeImpls (encodeTts ++ decodeTts ++ typeTts) = typeImpls typeTts := by
          simp only [typeImpls, List.filterMap_append] at hencode hdecode ⊢
          rw [hencode _ he, hdecode _ hd, List.nil_append, List.nil_append]
        rw [himpls]
        refine ⟨coherent_of_databases hty.2 (derivedDatabases_shape _ _), fun i hi => ?_⟩
        obtain ⟨j, hj, hident⟩ := hty.1 _ (mem_typeImpls.mp hi)
        exact Item.typeImpl.inj hj ▸ hident

theorem expandDeriveTypeEncodeDecode_coherent_on_mood :
    expandDeriveTypeEncodeDecode acceptingChecks true true (fun _ => .ok [.other "impl Encode for Mood"])
        (fun _ => .ok [.other "impl Decode for Mood"]) ⟨[], "Mood", ⟨[], []⟩, .enum ["sad", "happy"]⟩ =
        some (.ok [.other "impl Encode for Mood", .other "impl Decode for Mood",
          .typeImpl ⟨.mySql, ⟨[], []⟩, "Mood", [], .typeInfoOf "str"⟩, .typeImpl ⟨.postgres, ⟨[], []⟩, "Mood", [], .withOid 1⟩]) ∧
      Coherent (typeImpls [.other "impl Encode for Mood", .other "impl Decode for Mood",
          .typeImpl ⟨.mySql, ⟨[], []⟩, "Mood", [], .typeInfoOf "str"⟩, .typeImpl ⟨.postgres, ⟨[], []⟩, "Mood", [], .withOid 1⟩]) ∧
        ∀ i ∈ typeImpls [.other "impl Encode for Mood", .other "impl Decode for Mood",
          .typeImpl ⟨.mySql, ⟨[], []⟩, "Mood", [], .typeInfoOf "str"⟩, .typeImpl ⟨.postgres, ⟨[], []⟩, "Mood", [], .withOid 1⟩],
          i.ident = "Mood" :=
  ⟨rfl, @expandDeriveTypeEncodeDecode_coherent acceptingChecks true true ⟨[], "Mood", ⟨[], []⟩, .enum ["sad", "happy"]⟩ _
    (fun _ => .ok [.other "impl Encode for Mood"]) (fun _ => .ok [.other "impl Decode for Mood"])
    (fun _ h => by cases h; rfl) (fun _ h => by cases h; rfl) rfl⟩

end Emitted

end Sqlx.Macros
