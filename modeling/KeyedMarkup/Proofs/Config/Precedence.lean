import KeyedMarkup.Config.Load

/-!
# Overridden settings

A setting of the command line takes the place of the one in the file. Two files that differ in
nothing but such settings lead to the same outcome, unless the key prefix of one of them refers to
a variable that is not set: the references of a file are resolved before the command line has its
say, so they can fail in a prefix that is then overridden.
-/

namespace KeyedMarkup

namespace Reference

/-- The variable of a piece that stands for nothing. -/
def Piece.unset? (environment : Environment) : Piece → Option String
  | .char _ => none
  | .variable name fallback =>
      match (environment name).or fallback with
      | some _ => none
      | none => some name

/-- The first variable of a text that is not set and has no text in its place. -/
def unset? (environment : Environment) (text : String) : Option String :=
  (piecesOf text).findSome? (Piece.unset? environment)

variable {environment : Environment}

theorem Piece.value_eq_error_iff {piece : Piece} {name : String} :
    piece.value environment = .error name ↔ piece.unset? environment = some name := by
  rcases piece with c | ⟨n, fallback⟩
  · simp [Piece.value, Piece.unset?]
  · rw [Piece.value, Piece.unset?]
    cases (environment n).or fallback <;> simp

theorem valueOfAll_eq_error_iff {pieces : List Piece} {name : String} :
    valueOfAll environment pieces = .error name ↔
      pieces.findSome? (Piece.unset? environment) = some name := by
  induction pieces with
  | nil => exact ⟨nofun, nofun⟩
  | cons piece rest ih =>
      rw [valueOfAll, List.findSome?_cons]
      cases hvalue : piece.value environment with
      | error n =>
          rw [Piece.value_eq_error_iff.mp hvalue, Option.some.injEq]
          exact ⟨Except.error.inj, congrArg Except.error⟩
      | ok head =>
          have hset : piece.unset? environment = none := by
            cases hunset : piece.unset? environment with
            | none => rfl
            | some n => rw [Piece.value_eq_error_iff.mpr hunset] at hvalue; cases hvalue
          rw [hset, ← ih]
          cases valueOfAll environment rest with
          | error n => exact Iff.rfl
          | ok tail => exact ⟨nofun, nofun⟩

theorem expand_eq_error_iff {text name : String} :
    expand environment text = .error name ↔ unset? environment text = some name := by
  rw [unset?, ← valueOfAll_eq_error_iff, expand]
  cases valueOfAll environment (piecesOf text) with
  | error n => rw [Except.map, Except.error.injEq, Except.error.injEq]
  | ok cs => exact ⟨nofun, nofun⟩

variable {environment' : Environment}

theorem valueOfAll_congr {pieces : List Piece}
    (h : ∀ name fallback, .variable name fallback ∈ pieces →
      environment name = environment' name) :
    valueOfAll environment pieces = valueOfAll environment' pieces := by
  induction pieces with
  | nil => rfl
  | cons piece rest ih =>
      have hpiece : piece.value environment = piece.value environment' := by
        rcases piece with c | ⟨name, fallback⟩
        · rfl
        · rw [Piece.value, Piece.value, h name fallback List.mem_cons_self]
      rw [valueOfAll, valueOfAll, hpiece,
        ih fun name fallback hmem => h name fallback (List.mem_cons_of_mem _ hmem)]

theorem expand_congr {text : String}
    (h : ∀ name ∈ names text, environment name = environment' name) :
    expand environment text = expand environment' text := by
  rw [expand, expand, valueOfAll_congr]
  intro name fallback hmem
  exact h name (List.mem_filterMap.mpr ⟨_, hmem, rfl⟩)

end Reference

private theorem lookup_map_of_mem (f : String → Option String) {names : List String} {name : String}
    (h : name ∈ names) : (names.map fun n => (n, f n)).lookup name = some (f name) := by
  induction names with
  | nil => cases h
  | cons n rest ih =>
      rw [List.map_cons, List.lookup_cons]
      by_cases heq : name = n
      · rw [heq, beq_self_eq_true]
      · rw [beq_false_of_ne heq]
        exact ih ((List.mem_cons.mp h).resolve_left heq)

/-- The variables that are looked up for a text are those that it refers to. -/
theorem Host.expand_environment (host : Host Id) (text : String) :
    Reference.expand (host.environment (Reference.names text)) text =
      Reference.expand host.lookup text := by
  apply Reference.expand_congr
  intro name hname
  have hlookups := List.idRun_mapM (l := Reference.names text)
    (f := fun n => do return (n, ← host.lookup n))
  show ((List.mapM (fun n => do return (n, ← host.lookup n))
    (Reference.names text)).run.lookup name).join = host.lookup name
  rw [hlookups]
  exact congrArg Option.join (lookup_map_of_mem host.lookup hname)

namespace Config

/-- Whether two configurations differ in nothing but what is overridden, their paths apart. -/
structure Agree (o : Overrides) (c d : Config) : Prop where
  gfm : o.gfm = none → c.gfm = d.gfm
  sanitize : o.sanitize = none → c.sanitize = d.sanitize
  keyPrefix : o.keyPrefix = none → c.keyPrefix = d.keyPrefix
  allowDangerousHtml : o.allowDangerousHtml = none → c.allowDangerousHtml = d.allowDangerousHtml
  maxDepth : c.maxDepth = d.maxDepth
  additions : c.additions = d.additions

def pathless (c : Config) : Config := { c with path := none }

/-- What comes of loading a configuration, apart from the path of its file. -/
def settings (loaded : Except Error Config) : Except Error Config := loaded.map pathless

/-- Whether a text is that of the file that is given, or that is found where none is given. -/
def Reads (host : Host Id) (given : Option String) (text : String) : Prop :=
  ∃ path, (given = some path ∧ (host.isPresent path).run = true ∨
    given = none ∧ (discover host).run = some path) ∧ (host.read path).run = .ok text

variable {o : Overrides} {c d : Config} {environment : Environment}

theorem Agree.located (h : Agree o c d) (path path' : Option String) :
    Agree o { c with path } { d with path := path' } := { h with }

theorem settings_validated (c : Config) : settings c.validated = c.pathless.validated := by
  have hfaults : c.pathless.faults = c.faults := rfl
  rw [validated, validated, hfaults]
  cases c.faults <;> rfl

theorem pathless_overridden (h : Agree o c d) :
    (c.overridden o).pathless = (d.overridden o).pathless := by
  have hget {α : Type} {setting : Option α} {a b : α} (hab : setting = none → a = b) :
      setting.getD a = setting.getD b := by
    cases setting with
    | none => exact hab rfl
    | some value => rfl
  simp only [overridden, pathless, Config.mk.injEq]
  exact ⟨hget h.gfm, hget h.sanitize, hget h.keyPrefix, h.maxDepth, hget h.allowDangerousHtml,
    h.additions, trivial⟩

theorem settled_of_unset {name : String}
    (h : Reference.unset? environment c.keyPrefix = some name) :
    c.settled environment o = .error (.unset keyPrefixName name) := by
  rw [settled, expanded, Reference.expand_eq_error_iff.mpr h]
  rfl

/-- Once the references of a prefix are resolved, an overridden prefix is not looked at again. -/
theorem settled_of_set (h : Reference.unset? environment c.keyPrefix = none) :
    ∃ keyPrefix, Reference.expand environment c.keyPrefix = .ok keyPrefix ∧
      c.settled environment o = ({ c with keyPrefix }.overridden o).validated := by
  cases hexpand : Reference.expand environment c.keyPrefix with
  | error name =>
      rw [Reference.expand_eq_error_iff.mp hexpand] at h
      cases h
  | ok keyPrefix =>
      refine ⟨keyPrefix, rfl, ?_⟩
      rw [settled, expanded, hexpand]
      rfl

theorem validated_ne_unset (c : Config) (setting name : String) :
    c.validated ≠ .error (.unset setting name) := by
  rw [validated]
  cases c.faults <;> nofun

/-- Settings that are overridden matter in one way only, by a variable that is not set. -/
theorem settings_settled_eq_iff (h : Agree o c d) :
    settings (c.settled environment o) = settings (d.settled environment o) ↔
      Reference.unset? environment c.keyPrefix = Reference.unset? environment d.keyPrefix := by
  have hfails {c d : Config} {name : String}
      (hc : Reference.unset? environment c.keyPrefix = some name)
      (hd : Reference.unset? environment d.keyPrefix = none) :
      settings (c.settled environment o) ≠ settings (d.settled environment o) := by
    obtain ⟨keyPrefix, _, hsettled⟩ := settled_of_set hd
    rw [settled_of_unset hc, hsettled, settings_validated]
    exact (validated_ne_unset _ _ _).symm
  cases hc : Reference.unset? environment c.keyPrefix with
  | some name =>
      cases hd : Reference.unset? environment d.keyPrefix with
      | some other =>
          rw [settled_of_unset hc, settled_of_unset hd]
          simp [settings, Except.map]
      | none => exact iff_of_false (hfails hc hd) nofun
  | none =>
      cases hd : Reference.unset? environment d.keyPrefix with
      | some other => exact iff_of_false (hfails hd hc).symm nofun
      | none =>
          refine iff_of_true ?_ rfl
          obtain ⟨a, hexpandc, hsettledc⟩ := settled_of_set (o := o) hc
          obtain ⟨b, hexpandd, hsettledd⟩ := settled_of_set (o := o) hd
          have hsame (hnone : o.keyPrefix = none) : a = b := by
            rw [h.keyPrefix hnone, hexpandd] at hexpandc
            exact (Except.ok.inj hexpandc).symm
          have hagree : Agree o { c with keyPrefix := a } { d with keyPrefix := b } :=
            { h with keyPrefix := hsame }
          rw [hsettledc, hsettledd, settings_validated, settings_validated,
            pathless_overridden hagree]

variable {host : Host Id} {given : Option String} {text : String}

theorem written_of_reads (h : Reads host given text) (hc : ofText? text = some c) :
    ∃ path, written host given = .ok { c with path := some path } := by
  obtain ⟨path, hfile, hread⟩ := h
  replace hread : host.read path = pure (.ok text) := hread
  have hreadFile : readFile host path = .ok { c with path := some path } := by
    rw [readFile, hread, pure_bind]
    dsimp only
    rw [hc]
    rfl
  refine ⟨path, ?_⟩
  rcases hfile with ⟨rfl, hpresent⟩ | ⟨rfl, hfound⟩
  · replace hpresent : host.isPresent path = pure true := hpresent
    rw [written, hpresent, pure_bind, if_pos rfl, hreadFile]
  · replace hfound : discover host = pure (some path) := hfound
    rw [written, hfound, pure_bind]
    exact hreadFile

theorem load_of_reads (h : Reads host given text) (hc : ofText? text = some c) :
    ∃ path, load host given o = { c with path := some path }.settled host.lookup o := by
  obtain ⟨path, hwritten⟩ := written_of_reads h hc
  replace hwritten : written host given = pure (.ok { c with path := some path }) := hwritten
  refine ⟨path, ?_⟩
  rw [load, hwritten, pure_bind]
  show Config.settled (host.environment (Reference.names c.keyPrefix)) o _ = _
  rw [settled, settled, expanded, expanded, host.expand_environment]

/-- Two files that differ in nothing but overridden settings lead to the same outcome exactly if
the first variable that is not set is the same in their key prefixes, or none in both. A prefix
with such a variable fails, whatever takes its place. -/
theorem settings_load_eq_iff {host₁ host₂ : Host Id} (hlookup : host₁.lookup = host₂.lookup)
    {given₁ given₂ : Option String} {text₁ text₂ : String} (hreads₁ : Reads host₁ given₁ text₁)
    (hreads₂ : Reads host₂ given₂ text₂) {c₁ c₂ : Config} (hc₁ : ofText? text₁ = some c₁)
    (hc₂ : ofText? text₂ = some c₂) {o : Overrides} (hagree : Agree o c₁ c₂) :
    (settings (load host₁ given₁ o) = settings (load host₂ given₂ o) ↔
      Reference.unset? host₁.lookup c₁.keyPrefix = Reference.unset? host₁.lookup c₂.keyPrefix) ∧
      ∀ name, Reference.unset? host₁.lookup c₁.keyPrefix = some name →
        load host₁ given₁ o = .error (.unset keyPrefixName name) := by
  obtain ⟨path₁, hload₁⟩ := load_of_reads (o := o) hreads₁ hc₁
  obtain ⟨path₂, hload₂⟩ := load_of_reads (o := o) hreads₂ hc₂
  rw [hload₁, hload₂, ← hlookup]
  exact ⟨settings_settled_eq_iff (hagree.located _ _), fun name hname => settled_of_unset hname⟩

def variableText : String := "[render]\nkey_prefix = '${DOC}'\n"

def fallbackText : String := "[render]\nkey_prefix = '${DOC:-doc}'\nsanitize = false\n"

def plainText : String := "[render]\nkey_prefix = 'doc'\n"

/-- A machine without variables and with a file for each of these texts. -/
def shelf : Host Id where
  directories := []
  isPresent _ := true
  read path := .ok <|
    if path = "variable.toml" then variableText
    else if path = "fallback.toml" then fallbackText
    else plainText
  input := .ok ""
  lookup _ := none

def prefixed : Overrides := { keyPrefix := some "k", sanitize := some true }

theorem reads_variable : Reads shelf (some "variable.toml") variableText :=
  ⟨_, .inl ⟨rfl, rfl⟩, rfl⟩

theorem reads_plain : Reads shelf (some "plain.toml") plainText :=
  ⟨_, .inl ⟨rfl, rfl⟩, rfl⟩

theorem ofText?_variable : ofText? variableText = some { keyPrefix := "${DOC}" } := by
  decide +kernel

theorem ofText?_plain : ofText? plainText = some { keyPrefix := "doc" } := by
  decide +kernel

theorem agree_prefixed {keyPrefix keyPrefix' : String} {sanitize sanitize' : Bool} :
    Agree prefixed { keyPrefix, sanitize } { keyPrefix := keyPrefix', sanitize := sanitize' } where
  gfm _ := rfl
  sanitize := nofun
  keyPrefix := nofun
  allowDangerousHtml _ := rfl
  maxDepth := rfl
  additions := rfl

theorem settings_load_fallback :
    Reads shelf (some "fallback.toml") fallbackText ∧
      Reads shelf (some "plain.toml") plainText ∧
      Reads shelf (some "variable.toml") variableText ∧
      settings (load shelf (some "fallback.toml") prefixed) =
        settings (load shelf (some "plain.toml") prefixed) ∧
      load shelf (some "variable.toml") prefixed = .error (.unset keyPrefixName "DOC") := by
  have hreads : Reads shelf (some "fallback.toml") fallbackText := ⟨_, .inl ⟨rfl, rfl⟩, rfl⟩
  have hparsed : ofText? fallbackText = some { keyPrefix := "${DOC:-doc}", sanitize := false } := by
    decide +kernel
  refine ⟨hreads, reads_plain, reads_variable, ?_, ?_⟩
  · apply (settings_load_eq_iff rfl hreads reads_plain hparsed ofText?_plain agree_prefixed).1.mpr
    decide +kernel
  · apply (settings_load_eq_iff rfl reads_variable reads_plain ofText?_variable ofText?_plain
      agree_prefixed).2
    decide +kernel

theorem settings_load_variable_ne :
    Reads shelf (some "variable.toml") variableText ∧
      ofText? variableText = some { keyPrefix := "${DOC}" } ∧
      Reads shelf (some "plain.toml") plainText ∧
      ofText? plainText = some { keyPrefix := "doc" } ∧
      Agree prefixed { keyPrefix := "${DOC}" } { keyPrefix := "doc" } ∧
      settings (load shelf (some "variable.toml") prefixed) ≠
        settings (load shelf (some "plain.toml") prefixed) := by
  refine ⟨reads_variable, ofText?_variable, reads_plain, ofText?_plain, agree_prefixed, ?_⟩
  obtain ⟨path, hload⟩ := load_of_reads (o := prefixed) reads_variable ofText?_variable
  obtain ⟨path', hload'⟩ := load_of_reads (o := prefixed) reads_plain ofText?_plain
  have hunset : Reference.unset? shelf.lookup "${DOC}" = some "DOC" := by decide +kernel
  have hset : Reference.unset? shelf.lookup "doc" = none := by decide +kernel
  intro heq
  rw [hload, hload'] at heq
  have hsame := (settings_settled_eq_iff (agree_prefixed.located _ _)).mp heq
  rw [hunset, hset] at hsame
  cases hsame

end Config

end KeyedMarkup
