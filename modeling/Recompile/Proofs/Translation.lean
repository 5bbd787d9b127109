import Recompile.Proofs.Propagation

/-!
# Compilers that translate source by source

A `Translation` makes of every source, from its path and its content alone, the classes that it defines and those that
it refers to. A compiler that works by a translation reports the same for a source whenever it is asked
(`SourceCompiler.Translates`), so what an analysis ought to say of a project is determined by the project:
`Translation.Describes` spells it out. Any two analyses that describe the same project are equal
(`Translation.Describes.beq`).

The references of a source lead to sources that define them (`Translation.Depends`) and to classes of other modules
(`Translation.External`). Both depend on the whole project, which is why a source that did not change may still need a
new record.
-/

namespace Recompile

/-- The sources of a module with their contents. -/
abbrev Project := SortedMap Path Bytes

/-- **A compiler that looks at one source at a time.** The spelling of the path does not count. -/
structure Translation where
  classes : Path → Bytes → List CompiledClass
  references : Path → Bytes → SortedSet String
  classes_congr : ∀ {p q : Path}, (p == q) = true → ∀ b, classes p b = classes q b
  references_congr : ∀ {p q : Path}, (p == q) = true → ∀ b, references p b = references q b

/-- The class of a name among those of a source; of two with one name the later one counts. -/
def lastNamed (classes : List CompiledClass) (name : String) : Option CompiledClass :=
  classes.reverse.find? fun c => c.name == name

theorem lastNamed_isSome {classes : List CompiledClass} {name : String} :
    (∃ c, lastNamed classes name = some c) ↔ ∃ c ∈ classes, c.name = name := by
  unfold lastNamed
  rw [← Option.isSome_iff_exists, List.find?_isSome]
  simp

theorem recordIn_singleton (u : CompiledUnit) (name : String) :
    CompiledUnit.recordIn [u] name = (lastNamed u.classes name).map fun c => ⟨u.source, c.file, c.api⟩ := by
  unfold CompiledUnit.recordIn lastNamed
  simp only [CompiledUnit.allRecords, List.flatMap_cons, List.flatMap_nil, List.append_nil,
    CompiledUnit.records, ← List.map_reverse]
  induction u.classes.reverse with
  | nil => rfl
  | cons c rest ih =>
    by_cases h : c.name = name
    · simp [SortedMap.find?, h]
    · have h' : ¬ name = c.name := fun e => h e.symm
      simp [SortedMap.find?, h, h', ih]

theorem exists_of_recordIn {units : List CompiledUnit} {name : String} {k : ClassInfo}
    (h : CompiledUnit.recordIn units name = some k) :
    ∃ u ∈ units, ∃ c, lastNamed u.classes name = some c ∧ k = ⟨u.source, c.file, c.api⟩ := by
  induction units with
  | nil => simp [CompiledUnit.recordIn, CompiledUnit.allRecords, SortedMap.find?] at h
  | cons u rest ih =>
    have hsplit : CompiledUnit.recordIn (u :: rest) name =
        (CompiledUnit.recordIn rest name).or (CompiledUnit.recordIn [u] name) := by
      simp [CompiledUnit.recordIn, CompiledUnit.allRecords, SortedMap.find?_append]
    rw [hsplit, Option.or_eq_some_iff] at h
    rcases h with h | ⟨-, h⟩
    · obtain ⟨v, hv, hc⟩ := ih h
      exact ⟨v, List.mem_cons_of_mem _ hv, hc⟩
    · rw [recordIn_singleton, Option.map_eq_some_iff] at h
      obtain ⟨c, hc, rfl⟩ := h
      exact ⟨u, List.mem_cons_self, c, hc, rfl⟩

theorem recordIn_isSome {units : List CompiledUnit} {u : CompiledUnit} (hu : u ∈ units) {name : String}
    {c : CompiledClass} (hc : lastNamed u.classes name = some c) :
    ∃ k, CompiledUnit.recordIn units name = some k := by
  obtain ⟨d, hd, rfl⟩ := lastNamed_isSome.1 ⟨c, hc⟩
  exact CompiledUnit.exists_recordIn_of_mem hu hd

namespace Translation

variable (T : Translation) (F : String → Option Digest) (P : Project)

/-! ### What a project defines -/

/-- A source of the project defines a class. -/
def Defines (name : String) (p : Path) (c : CompiledClass) : Prop :=
  ∃ b, P.get? p = some b ∧ lastNamed (T.classes p b) name = some c

/-- **No class is defined by two sources.** -/
def Disjoint : Prop := ∀ name p c q d, T.Defines P name p c → T.Defines P name q d → (p == q) = true

/-- A source of the project refers to a class. -/
def Refers (p : Path) (name : String) : Prop :=
  ∃ b, P.get? p = some b ∧ (T.references p b).contains name = true

/-- A source depends on another one, which defines a class that it refers to. -/
def Depends (p q : Path) : Prop :=
  ∃ name, T.Refers P p name ∧ ∃ owner c, T.Defines P name owner c ∧ (owner == p) = false ∧ (q == owner) = true

/-- A source refers to a class of another module, which has a fingerprint. -/
def External (p : Path) (name : String) (d : Digest) : Prop :=
  T.Refers P p name ∧ (∀ owner c, ¬ T.Defines P name owner c) ∧ F name = some d

variable {T F P}

theorem Defines.congr {name : String} {p q : Path} {c : CompiledClass} (h : T.Defines P name p c)
    (hpq : (p == q) = true) : T.Defines P name q c := by
  obtain ⟨b, hb, hc⟩ := h
  refine ⟨b, ?_, ?_⟩
  · rwa [← P.get?_congr (Path.compare_eq_iff_beq.2 hpq)]
  · rwa [← T.classes_congr hpq]

theorem Defines.unique {name : String} {p q : Path} {c d : CompiledClass} (hT : T.Disjoint P)
    (h : T.Defines P name p c) (h' : T.Defines P name q d) : c = d := by
  obtain ⟨b, hb, hc⟩ := h.congr (hT name p c q d h h')
  obtain ⟨b', hb', hd⟩ := h'
  rw [hb] at hb'
  rw [← Option.some.inj hb', hc] at hd
  exact Option.some.inj hd

theorem refers_iff {p : Path} {b : Bytes} (hb : P.get? p = some b) {name : String} :
    T.Refers P p name ↔ (T.references p b).contains name = true := by
  refine ⟨?_, fun h => ⟨b, hb, h⟩⟩
  rintro ⟨b', hb', h⟩
  rwa [Option.some.inj (hb.symm.trans hb')]

/-! ### What an analysis ought to say -/

variable (T F P)

/-- **What the record of a source ought to say.** -/
structure RecordOf (p : Path) (b : Bytes) (info : SourceInfo) : Prop where
  digest : info.digest = Digest.ofBytes b
  classes : ∀ name, info.classes.contains name = true ↔ ∃ c, lastNamed (T.classes p b) name = some c
  sourceDeps : ∀ q, info.sourceDeps.contains q = true ↔ T.Depends P p q
  binaryDeps : ∀ name d, info.binaryDeps.get? name = some d ↔ T.External F P p name d

/-- **What the table of classes ought to say.** -/
structure TableOf (a : Analysis) : Prop where
  sound : ∀ name k, a.class? name = some k →
    ∃ c, T.Defines P name k.source c ∧ (k.classFile == c.file) = true ∧ k.api = c.api
  complete : ∀ name p c, T.Defines P name p c → ∃ k, a.class? name = some k

/-- **A table of classes that is right apart from some sources.** What it says of their classes does not count. -/
structure TableOutside (due : List Path) (a : Analysis) : Prop where
  sound : ∀ name k, a.class? name = some k → ¬ k.source.Among due →
    ∃ c, T.Defines P name k.source c ∧ (k.classFile == c.file) = true ∧ k.api = c.api
  complete : ∀ name p c, T.Defines P name p c → ¬ p.Among due →
    ∃ k, a.class? name = some k ∧ (k.source == p) = true

/-- **An analysis that describes a project.** -/
structure Describes (a : Analysis) : Prop where
  listed : a.Listed
  classes : T.TableOf P a
  /-- Every source has its record. -/
  sources : ∀ p b, P.get? p = some b → ∃ info, a.source? p = some info ∧ T.RecordOf F P p b info
  /-- Nothing else is recorded. -/
  rest : ∀ p, P.get? p = none → a.source? p = none

variable {T F P}

/-- What an analysis records is the record of a source of the project. -/
theorem Describes.record {a : Analysis} (h : T.Describes F P a) {p : Path} {info : SourceInfo}
    (hinfo : a.source? p = some info) : ∃ b, P.get? p = some b ∧ T.RecordOf F P p b info := by
  cases hp : P.get? p with
  | none => simp [h.rest p hp] at hinfo
  | some b =>
    obtain ⟨info', hinfo', hrec⟩ := h.sources p b hp
    rw [hinfo] at hinfo'
    exact ⟨b, rfl, Option.some.inj hinfo' ▸ hrec⟩

/-- A source depends on sources of the project. -/
theorem Depends.target {p q : Path} (h : T.Depends P p q) : ∃ b, P.get? q = some b := by
  obtain ⟨_, _, owner, c, ⟨b, hb, -⟩, -, hq⟩ := h
  exact ⟨b, by rw [P.get?_congr (Path.compare_eq_iff_beq.2 hq), hb]⟩

/-- In a project without two definitions of one class the table says who defines it. -/
theorem TableOf.owner {a : Analysis} (h : T.TableOf P a) (hT : T.Disjoint P) {name : String} {p : Path}
    {c : CompiledClass} (hdef : T.Defines P name p c) :
    ∃ k, a.class? name = some k ∧ (k.source == p) = true ∧ (k.classFile == c.file) = true ∧ k.api = c.api := by
  obtain ⟨k, hk⟩ := h.complete name p c hdef
  obtain ⟨d, hd, hfile, hapi⟩ := h.sound name k hk
  obtain rfl := Defines.unique hT hdef hd
  exact ⟨k, hk, hT name _ _ _ _ hd hdef, hfile, hapi⟩

theorem TableOf.none_iff {a : Analysis} (h : T.TableOf P a) {name : String} :
    a.class? name = none ↔ ∀ p c, ¬ T.Defines P name p c := by
  constructor
  · intro hnone p c hdef
    obtain ⟨k, hk⟩ := h.complete name p c hdef
    simp [hnone] at hk
  · intro hno
    cases hk : a.class? name with
    | none => rfl
    | some k =>
      obtain ⟨c, hdef, -⟩ := h.sound name k hk
      exact absurd hdef (hno _ _)

theorem TableOf.outside {a : Analysis} (h : T.TableOf P a) (hT : T.Disjoint P) (due : List Path) :
    T.TableOutside P due a where
  sound := fun name k hk _ => h.sound name k hk
  complete := fun name p c hdef _ => by
    obtain ⟨k, hk, howner, -⟩ := h.owner hT hdef
    exact ⟨k, hk, howner⟩

section Owners

variable {a : Analysis} {owners : SortedMap String Path}
  (howners : ∀ name, owners.get? name = (a.class? name).map ClassInfo.source)

include howners

/-- With a right table a source depends on the owners of the classes that it refers to, except itself. -/
theorem TableOf.depends_iff (h : T.TableOf P a) (hT : T.Disjoint P) {p q : Path} :
    T.Depends P p q ↔ ∃ name, T.Refers P p name ∧
      ∃ owner, owners.get? name = some owner ∧ (owner == p) = false ∧ (q == owner) = true := by
  constructor
  · rintro ⟨name, href, owner, d, hdef, hother, hq⟩
    obtain ⟨k, hk, howner, -⟩ := h.owner hT hdef
    refine ⟨name, href, k.source, by rw [howners, hk]; rfl, ?_, BEq.trans hq (BEq.symm howner)⟩
    rwa [BEq.congr_left howner]
  · rintro ⟨name, href, owner, howner, hother, hq⟩
    rw [howners, Option.map_eq_some_iff] at howner
    obtain ⟨k, hk, rfl⟩ := howner
    obtain ⟨d, hdef, -⟩ := h.sound name k hk
    exact ⟨name, href, k.source, d, hdef, hother, hq⟩

/-- With a right table the classes of other modules are those without an owner. -/
theorem TableOf.external_iff (h : T.TableOf P a) {p : Path} {name : String} {d : Digest} :
    T.External F P p name d ↔ T.Refers P p name ∧ owners.get? name = none ∧ F name = some d := by
  rw [howners, Option.map_eq_none_iff, h.none_iff]
  rfl

end Owners

end Translation

/-! ### Equal descriptions -/

namespace Translation

open Engine

variable {T : Translation} {F : String → Option Digest} {P : Project}

/-- What a record ought to say determines it. -/
theorem RecordOf.beq {p : Path} {b : Bytes} {i j : SourceInfo} (hi : T.RecordOf F P p b i)
    (hj : T.RecordOf F P p b j) : (i == j) = true := by
  refine SourceInfo.beq_iff.2 ⟨hi.digest.trans hj.digest.symm, fun n => ?_, fun q => ?_, fun n => ?_⟩
  · rw [Bool.eq_iff_iff, hi.classes, hj.classes]
  · rw [Bool.eq_iff_iff, hi.sourceDeps, hj.sourceDeps]
  · refine Option.ext fun d => ?_
    rw [hi.binaryDeps, hj.binaryDeps]

/-- A record that equals what it ought to be says what it ought to say. -/
theorem RecordOf.of_beq {p : Path} {b : Bytes} {i j : SourceInfo} (hi : T.RecordOf F P p b i)
    (h : (j == i) = true) : T.RecordOf F P p b j := by
  obtain ⟨hdigest, hclasses, hdeps, hbinary⟩ := SourceInfo.beq_iff.1 h
  refine ⟨hdigest.trans hi.digest, fun n => ?_, fun q => ?_, fun n d => ?_⟩
  · rw [hclasses, hi.classes]
  · rw [hdeps, hi.sourceDeps]
  · rw [hbinary, hi.binaryDeps]

/-- **Any two analyses that describe a project are equal.** -/
theorem Describes.beq (hT : T.Disjoint P) {a b : Analysis} (ha : T.Describes F P a) (hb : T.Describes F P b) :
    (a == b) = true := by
  refine Analysis.beq_iff.2 ⟨fun p => ?_, fun name => ?_⟩
  · cases hp : P.get? p with
    | none => simp [ha.rest p hp, hb.rest p hp]
    | some bytes =>
      obtain ⟨i, hi, hri⟩ := ha.sources p bytes hp
      obtain ⟨j, hj, hrj⟩ := hb.sources p bytes hp
      simpa [hi, hj] using hri.beq hrj
  · cases hk : a.class? name with
    | none => simp [hb.classes.none_iff.2 (ha.classes.none_iff.1 hk)]
    | some k =>
      obtain ⟨c, hdef, hfile, hapi⟩ := ha.classes.sound name k hk
      obtain ⟨l, hl, howner, hfile', hapi'⟩ := hb.classes.owner hT hdef
      have hbeq : (k == l) = true :=
        ClassInfo.beq_iff.2 ⟨BEq.symm howner, BEq.trans hfile (BEq.symm hfile'), hapi.trans hapi'.symm⟩
      simpa [hl] using hbeq

/-- An analysis that equals one that describes a project describes it as well. -/
theorem Describes.of_beq {a b : Analysis} (ha : T.Describes F P a) (h : (b == a) = true) :
    T.Describes F P b := by
  obtain ⟨hsources, hclasses⟩ := Analysis.beq_iff.1 h
  -- each field says what is found under a key, and equal analyses find equal things
  refine ⟨ha.listed.of_beq h, ⟨fun name l hl => ?_, fun name p c hdef => ?_⟩, fun p bytes hp => ?_, fun p hp => ?_⟩
  · have hname := hclasses name
    rw [hl] at hname
    cases hk : a.class? name with
    | none => simp [hk] at hname
    | some k =>
      obtain ⟨hsource, hfile, hapi⟩ := ClassInfo.beq_iff.1 (by simpa [hk] using hname)
      obtain ⟨c, hdef, hkfile, hkapi⟩ := ha.classes.sound name k hk
      exact ⟨c, hdef.congr (BEq.symm hsource), BEq.trans hfile hkfile, hapi.trans hkapi⟩
  · obtain ⟨k, hk⟩ := ha.classes.complete name p c hdef
    have hname := hclasses name
    rw [hk] at hname
    cases hl : b.class? name with
    | none => simp [hl] at hname
    | some l => exact ⟨l, rfl⟩
  · obtain ⟨i, hi, hrec⟩ := ha.sources p bytes hp
    have hsource := hsources p
    rw [hi] at hsource
    cases hj : b.source? p with
    | none => simp [hj] at hsource
    | some j => exact ⟨j, rfl, hrec.of_beq (by simpa [hj] using hsource)⟩
  · have hsource := hsources p
    rw [ha.rest p hp] at hsource
    cases hj : b.source? p with
    | none => rfl
    | some j => simp [hj] at hsource

/-! ### One round -/

variable (T P)

/-- **Units that translate some sources of a project,** one unit for each source, in any order. -/
structure UnitsOf (sources : List Path) (units : List CompiledUnit) : Prop where
  distinct : units.Pairwise fun u v => (u.source == v.source) = false
  /-- Every source has a unit. -/
  every : ∀ p ∈ sources, ∃ u ∈ units, (u.source == p) = true
  /-- Every unit is for one of the sources. -/
  only : ∀ u ∈ units, u.source.Among sources
  /-- A unit is determined by the path and the content of its source. -/
  content : ∀ u ∈ units, ∀ b, P.get? u.source = some b →
    u.classes = T.classes u.source b ∧ u.references = T.references u.source b

variable {T P}

theorem UnitsOf.oneEach {sources : List Path} {units : List CompiledUnit} (h : T.UnitsOf P sources units) :
    OneEach sources units := ⟨h.distinct, h.every, h.only⟩

theorem UnitsOf.unitFor {sources : List Path} {units : List CompiledUnit} (h : T.UnitsOf P sources units)
    {p : Path} (hp : p.Among sources) {b : Bytes} (hb : P.get? p = some b) :
    ((Recompile.unitFor units p).source == p) = true ∧
      (Recompile.unitFor units p).classes = T.classes p b ∧
      (Recompile.unitFor units p).references = T.references p b := by
  obtain ⟨v, hv, hvp, hunit⟩ := h.oneEach.exists_unitFor hp
  rw [← hunit]
  have hbv : P.get? v.source = some b := by rw [P.get?_congr (Path.compare_eq_iff_beq.2 hvp), hb]
  obtain ⟨hclasses, hrefs⟩ := h.content v hv b hbv
  exact ⟨hvp, hclasses.trans (T.classes_congr hvp b), hrefs.trans (T.references_congr hvp b)⟩

theorem UnitsOf.defines_iff {sources : List Path} {units : List CompiledUnit} (h : T.UnitsOf P sources units)
    (hsources : ∀ p ∈ sources, ∃ b, P.get? p = some b) {u : CompiledUnit} (hu : u ∈ units) {name : String}
    {c : CompiledClass} : T.Defines P name u.source c ↔ lastNamed u.classes name = some c := by
  obtain ⟨p, hp, hpu⟩ := h.only u hu
  obtain ⟨b, hb⟩ := hsources p hp
  rw [P.get?_congr (Path.compare_eq_iff_beq.2 hpu)] at hb
  rw [(h.content u hu b hb).1]
  refine ⟨?_, fun hc => ⟨b, hb, hc⟩⟩
  rintro ⟨b', hb', hc⟩
  rwa [Option.some.inj (hb.symm.trans hb')]

/-- What a record says of the translation of a source is what it ought to say, if the owners are those that the project
has and the classpath answers as it should. -/
theorem recordOf_of_recorded (hT : T.Disjoint P) {a : Analysis} (htable : T.TableOf P a)
    {owners : SortedMap String Path} (howners : ∀ name, owners.get? name = (a.class? name).map ClassInfo.source)
    {c : Classpath} (hanswers : ∀ name found, c.resolved.get? name = some found → found = F name)
    {p : Path} {b : Bytes} (hb : P.get? p = some b) {u : CompiledUnit} (hup : (u.source == p) = true)
    (hclasses : u.classes = T.classes p b) (hrefs : u.references = T.references p b) {info : SourceInfo}
    (hrec : u.Recorded (Digest.ofBytes b) owners c info) : T.RecordOf F P p b info := by
  refine ⟨hrec.digest, fun name => ?_, fun q => ?_, fun name d => ?_⟩
  · rw [hrec.classes, hclasses, lastNamed_isSome]
  · rw [hrec.sourceDeps, htable.depends_iff howners hT, hrefs]
    simp only [refers_iff hb, BEq.congr_right hup]
  · rw [htable.external_iff howners, refers_iff hb, ← hrefs]
    constructor
    · intro hd
      -- a name without an owner was looked up, the others have no fingerprint
      by_cases hn : u.references.contains name = true ∧ owners.get? name = none
      · exact ⟨hn.1, hn.2, (hanswers name _ (hrec.answered hd)).symm⟩
      · rw [hrec.rest name hn] at hd
        simp at hd
    · rintro ⟨href, hno, hF⟩
      obtain ⟨found, hfound, hbin⟩ := hrec.looked name href hno
      rw [hbin, hanswers name found hfound, hF]

section Round

variable {digests : SortedMap Path Digest} {due : List Path} {a : Analysis} {c c' : Classpath} {r : Round}
  (follows : r.Follows digests due a c c') (ha : a.Listed)
  (hdigests : ∀ p, digests.get? p = (P.get? p).map Digest.ofBytes) (hdue : ∀ p ∈ due, ∃ b, P.get? p = some b)
  (hunits : T.UnitsOf P due r.units)

include follows ha hdigests hdue hunits

/-- The classes after a round are those of its units, and the old ones of the sources that it did not compile. -/
theorem class?_after_of_units (name : String) :
    r.after.class? name = (CompiledUnit.recordIn r.units name).or ((without due a).class? name) := by
  refine follows.class?_after ha hunits.oneEach (fun p hp => ?_) name
  obtain ⟨b, hb⟩ := hdue p hp
  exact SortedMap.contains_iff.2 ⟨_, by rw [hdigests, hb]; rfl⟩

/-- **A round over a table that is right apart from its sources makes the table right.** -/
theorem tableOf_after (houtside : T.TableOutside P due a) : T.TableOf P r.after := by
  have hclass := class?_after_of_units follows ha hdigests hdue hunits
  refine ⟨fun name k hk => ?_, fun name p d hdef => ?_⟩
  · rw [hclass, Option.or_eq_some_iff] at hk
    rcases hk with hk | ⟨-, hk⟩
    · obtain ⟨u, hu, d, hd, rfl⟩ := exists_of_recordIn hk
      exact ⟨d, (hunits.defines_iff hdue hu).2 hd, BEq.rfl, rfl⟩
    · obtain ⟨hk, hnot⟩ := (class?_without ha due).1 hk
      exact houtside.sound name k hk hnot
  · by_cases hp : p.Among due
    · obtain ⟨q, hq, hqp⟩ := hp
      obtain ⟨u, hu, huq⟩ := hunits.every q hq
      have hd := (hunits.defines_iff hdue hu).1 (hdef.congr (BEq.symm (BEq.trans huq hqp)))
      obtain ⟨k, hk⟩ := recordIn_isSome hu hd
      exact ⟨k, by rw [hclass, hk]; rfl⟩
    · obtain ⟨k, hk, hkp⟩ := houtside.complete name p d hdef hp
      have hkeeps : (without due a).class? name = some k :=
        (class?_without ha due).2 ⟨hk, fun h => hp (h.congr hkp)⟩
      -- one of the units may define a class of the name as well, and then counts
      rw [hclass, hkeeps]
      cases CompiledUnit.recordIn r.units name <;> simp

/-- **The records of the sources of a round** are what they ought to be once the table is right. -/
theorem recordOf_after (hT : T.Disjoint P) (htable : T.TableOf P r.after)
    (hanswers : ∀ name found, c'.resolved.get? name = some found → found = F name) {p : Path} {b : Bytes}
    (hb : P.get? p = some b) (hp : p.Among due) :
    ∃ info, r.after.source? p = some info ∧ T.RecordOf F P p b info := by
  have hdigest : digests.get? p = some (Digest.ofBytes b) := by rw [hdigests, hb]; rfl
  obtain ⟨info, hinfo, hrecorded⟩ := follows.exists_source?_of_recorded hdigest (Or.inl hp)
  obtain ⟨hup, hclasses, hrefs⟩ := hunits.unitFor hp hb
  have howners : ∀ name, (classOwners (without due a) r.units).get? name =
      (r.after.class? name).map ClassInfo.source := by
    intro name
    rw [get?_classOwners, class?_after_of_units follows ha hdigests hdue hunits]
  exact ⟨info, hinfo, recordOf_of_recorded hT htable howners hanswers hb hup hclasses hrefs hrecorded⟩

end Round

end Translation

end Recompile
