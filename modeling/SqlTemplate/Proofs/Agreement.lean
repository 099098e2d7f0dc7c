import SqlTemplate.Command
import SqlTemplate.Proofs.Skeleton

/-!
The three commands that take a template agree on it. To resolve a template, only the literals and the
names of an adapter count, so that a database sees the SQL that its dialect renders
(`Dialect.resolve_connected`). What goes wrong before that goes wrong for every database, and nothing
is sent (`Invocation.commands_agree`).
-/

namespace SqlTemplate

/-! ### Adapters that write alike -/

namespace Adapter

variable {a a' : Adapter}

theorem itemText_congr (hliteral : a.literal = a'.literal) (key : String) (v : Value) :
    a.itemText key v = a'.itemText key v := by
  induction v using Value.induction with
  | scalar s => rw [itemText, itemText, hliteral]
  | record _ _ | condition _ _ => rfl
  | sequence items ih =>
    rw [itemText, itemText, itemTexts_eq_mapM, itemTexts_eq_mapM, mapM_congr ih]

theorem staticText_congr (hliteral : a.literal = a'.literal) : a.staticText = a'.staticText := by
  ext key v : 2
  cases v with
  | scalar s => rw [staticText, staticText, hliteral]
  | record _ | condition _ => rfl
  | sequence items =>
    have hitem : a.itemText key = a'.itemText key := funext (itemText_congr hliteral key)
    rw [staticText, staticText, itemTexts_eq_mapM, itemTexts_eq_mapM, hitem]

variable (hliteral : a.literal = a'.literal) (hidentifier : a.identifier = a'.identifier)

include hliteral hidentifier

theorem valueText_congr : a.valueText = a'.valueText := by
  have hstatic : a.staticText = a'.staticText := staticText_congr hliteral
  have hfield : a.fieldText = a'.fieldText := by
    ext p fields field : 3
    rw [fieldText, fieldText, hstatic, hidentifier]
  have hrecord : a.recordText = a'.recordText := by
    ext p fields : 2
    rw [recordText, recordText, hfield]
  have hitem : a.objectItemText = a'.objectItemText := by
    ext p v : 2
    cases v with
    | record fields => rw [objectItemText, objectItemText, hrecord]
    | scalar _ | sequence _ | condition _ => rfl
  have hobject : a.objectText = a'.objectText := by
    ext p v : 2
    cases v with
    | record fields => rw [objectText, objectText, hrecord]
    | sequence items => rw [objectText, objectText, hitem]
    | scalar _ | condition _ => rfl
  have hfragment : a.fragmentText = a'.fragmentText := by
    ext p v : 2
    unfold fragmentText
    rw [hstatic]
  ext p v : 2
  unfold valueText
  rw [hstatic, hobject, hfragment]

omit hidentifier in
/-- A resolution depends on the fillers of its values and on how positional values are written. -/
theorem resolve_eq_of_fillers {params : Params}
    (hfiller : ∀ v ∈ params.values, a.filler v = a'.filler v) (t : Template) :
    a.resolve t params = a'.resolve t params := by
  have hfillers : (params.named.entries.map fun entry => (entry.1, a.filler entry.2)) =
      params.named.entries.map fun entry => (entry.1, a'.filler entry.2) := by
    apply List.map_congr_left
    intro entry hentry
    have hmem : entry.2 ∈ params.values :=
      List.mem_append_left _ (List.mem_map_of_mem hentry)
    rw [hfiller _ hmem]
  have hpositional : t.positionalTexts a params = t.positionalTexts a' params := by
    unfold Template.positionalTexts
    rw [staticText_congr hliteral]
  rw [resolve_eq_assemble, resolve_eq_assemble, hfillers, Template.assemble, Template.assemble,
    hpositional]

theorem filler_congr (v : Value) : a.filler v = a'.filler v := by
  have hvalue := valueText_congr hliteral hidentifier
  induction v using Value.induction with
  | scalar s => simp only [filler, hvalue]
  | sequence items _ => simp only [filler, hvalue]
  | record fields _ => simp only [filler, hvalue]
  | condition c ih =>
    have hparts : a.partTexts c.parts = a'.partTexts c.parts := by
      rw [partTexts_eq_mapM, partTexts_eq_mapM]
      apply mapM_congr
      intro part hpart
      exact resolve_eq_of_fillers hliteral (ih part hpart) _
    have hcondition : a.conditionText c = a'.conditionText c := by
      rw [conditionText, conditionText, hparts]
    simp only [filler, hvalue, hcondition]

theorem resolve_congr (t : Template) (params : Params) :
    a.resolve t params = a'.resolve t params :=
  resolve_eq_of_fillers hliteral (fun v _ => filler_congr hliteral hidentifier v) t

end Adapter

/-- What is sent to a database is what its dialect renders. -/
theorem Dialect.resolve_connected (d : Dialect) (backend : Backend) (t : Template)
    (params : Params) : (d.connected backend).resolve t params = d.adapter.resolve t params := by
  have hliteral : (d.connected backend).literal = d.adapter.literal := rfl
  have hidentifier : (d.connected backend).identifier = d.adapter.identifier := rfl
  exact Adapter.resolve_congr hliteral hidentifier t params

/-! ### Validation before resolution -/

namespace Adapter

variable {a : Adapter} {t : Template} {params : Params} {v : Validation} {e : Error} {sql : String}

theorem resolve_of_validate_error (h : t.validate params = .error e) :
    a.resolve t params = .error e := by
  rw [resolve_eq_assemble, Template.assemble, h]
  rfl

theorem resolve_of_missing (h : t.validate params = .ok v) (hmissing : v.missing ≠ []) :
    a.resolve t params = .error (.missing v.missing) := by
  have hvalid : ¬v.isValid = true := hmissing ∘ Validation.isValid_iff.mp
  rw [resolve_eq_assemble, Template.assemble, h]
  exact if_neg hvalid

theorem validate_of_resolve (h : a.resolve t params = .ok sql) :
    ∃ v, t.validate params = .ok v ∧ v.missing = [] := by
  cases hvalidate : t.validate params with
  | error e => simp [resolve_of_validate_error hvalidate] at h
  | ok v =>
    refine ⟨v, rfl, ?_⟩
    by_contra hmissing
    simp [resolve_of_missing hvalidate hmissing] at h

end Adapter

/-! ### What the commands find -/

/-- Settings that load, one query and its parameters. -/
structure Surroundings.Selects (around : Surroundings) (settingsFile : Option String)
    (settings : Settings) (source : Source) (q : Query) (params : Params) : Prop where
  settings_eq : Settings.load around.files around.userDirectory settingsFile = .ok settings
  queries_eq : source.queries around.files = .ok [q]
  params_eq : source.parameters around.files = .ok params

/-- The same, with one database behind every address. -/
def Surroundings.connectedTo (around : Surroundings) (backend : Backend) : Surroundings :=
  { around with connect := fun _ _ => .ok backend }

namespace Invocation

/-- The report shows the text as what a query resolves to. -/
def Shows (i : Invocation) (around : Surroundings) (sql : String) : Prop :=
  (i.report around).failure = none ∧
    ["Resolved SQL:", "  " ++ sql] <:+ (i.report around).lines

/-- What a run makes of the database's answer to an SQL text. -/
def answered (format : OutputFormat) (backend : Backend) (sql : String) : Report :=
  match backend.execute sql with
  | .ok rows => .ofExcept (format.lines rows)
  | .error cause => ⟨[], some (.failed (.rejected sql cause))⟩

/-- After the opening lines the report is what comes of sending this one text, whatever the database
is. -/
def Sends (i : Invocation) (around : Surroundings) (opening : List String) (format : OutputFormat)
    (sql : String) : Prop :=
  ∀ backend, i.report (around.connectedTo backend) =
    Report.followedBy ⟨opening, none⟩ (answered format backend sql)

section Reports

variable {around : Surroundings} {settingsFile : Option String} {settings : Settings}
  {source : Source} {q : Query} {params : Params}

theorem query_eq (h : around.Selects settingsFile settings source q params) :
    source.query around.files = .ok q := by
  rw [Source.query, h.queries_eq]
  rfl

theorem report_render (h : around.Selects settingsFile settings source q params) (verbose : Bool)
    (d : Dialect) :
    report ⟨settingsFile, verbose, .render source (some d)⟩ around =
      match q.resolve d.adapter params with
      | .ok sql => ⟨[sql], none⟩
      | .error e => ⟨[], some (.failed e)⟩ := by
  have hrender : render around source d =
      ((q.resolve d.adapter params).mapError .failed >>= fun sql => .ok [sql]) := by
    rw [render, query_eq h, h.params_eq]
    rfl
  simp only [report, h.settings_eq, reportWith, Option.getD_some, hrender]
  cases q.resolve d.adapter params <;> rfl

theorem report_inspect (h : around.Selects settingsFile settings source q params) (verbose : Bool)
    (d : Dialect) :
    report ⟨settingsFile, verbose, .inspect source (some d)⟩ around =
      match q.template.validate params with
      | .ok v => ⟨q.description ++ "" :: q.verdict d.adapter params v, none⟩
      | .error e => ⟨q.description, some (.failed e)⟩ := by
  have hinspect : inspect around source d = q.inspect d.adapter params := by
    rw [inspect, h.queries_eq, h.params_eq]
    rfl
  simp only [report, h.settings_eq, reportWith, Option.getD_some, hinspect, Query.inspect]
  cases q.template.validate params with
  | ok v => rfl
  | error e => simp [Report.followedBy, Report.ofExcept, Except.mapError, bind, Except.bind]

theorem ofConnection_eq {d : Dialect} {url : String} (hurl : Dialect.ofUrl? url = some d)
    (hd : d ≠ .mssql) : Dialect.ofConnection url = .ok d := by
  rw [Dialect.ofConnection, hurl]
  cases d with
  | mssql => exact absurd rfl hd
  | postgres | mysql | sqlite => rfl

theorem prepare_connected (q : Query) (params : Params) (d : Dialect) (backend : Backend) :
    q.prepare (d.connected backend) params =
      (q.resolve d.adapter params).map fun sql => ⟨sql, backend⟩ := by
  have hresolve : q.resolve (d.connected backend) params = q.resolve d.adapter params :=
    d.resolve_connected backend q.template params
  rw [← hresolve]
  unfold Query.prepare
  cases q.resolve (d.connected backend) params <;> rfl

theorem report_run (h : around.Selects settingsFile settings source q params) (verbose : Bool)
    {d : Dialect} {url : String} (hurl : Dialect.ofUrl? url = some d) (hd : d ≠ .mssql)
    (format : Option OutputFormat) (backend : Backend) :
    report ⟨settingsFile, verbose, .run source (some url) format⟩ (around.connectedTo backend) =
      Report.followedBy ⟨if verbose then ["Connecting to: " ++ url] else [], none⟩
        (match q.resolve d.adapter params with
          | .ok sql => answered (format.getD settings.format) backend sql
          | .error e => ⟨[], some (.failed e)⟩) := by
  have hselects : (around.connectedTo backend).Selects settingsFile settings source q params :=
    ⟨h.settings_eq, h.queries_eq, h.params_eq⟩
  have hsend : send (around.connectedTo backend) url q params (format.getD settings.format) =
      ((q.run (d.connected backend) params).mapError .failed >>= fun rows =>
        (format.getD settings.format).lines rows) := by
    rw [send, ofConnection_eq hurl hd]
    rfl
  simp only [report, hselects.settings_eq, reportWith, run, query_eq hselects, hselects.params_eq,
    Option.some_or]
  change Report.followedBy _ (.ofExcept (send _ _ _ _ _)) = _
  rw [hsend, Query.run, prepare_connected]
  congr 1
  cases q.resolve d.adapter params with
  | error e => rfl
  | ok sql =>
    change Report.ofExcept ((Prepared.run ⟨sql, backend⟩).mapError .failed >>= _) =
      answered (format.getD settings.format) backend sql
    rw [Prepared.run, answered]
    cases backend.execute sql <;> rfl

/-! ### The resolved text -/

variable {d : Dialect} {sql : String}

theorem answer_render_iff (h : around.Selects settingsFile settings source q params) (verbose : Bool) :
    Command.answer (some (.invoke ⟨settingsFile, verbose, .render source (some d)⟩)) around =
        ⟨0, sql ++ "\n", ""⟩ ↔ q.resolve d.adapter params = .ok sql := by
  rw [Command.answer, report_render h]
  cases q.resolve d.adapter params with
  | error e => simp [Outcome.ofReport]
  | ok sql' => simp [Outcome.ofReport, Outcome.joinLines]

theorem sends_iff (h : around.Selects settingsFile settings source q params) (verbose : Bool)
    {url : String} (hurl : Dialect.ofUrl? url = some d) (hd : d ≠ .mssql)
    (format : Option OutputFormat) :
    Sends ⟨settingsFile, verbose, .run source (some url) format⟩ around
        (if verbose then ["Connecting to: " ++ url] else []) (format.getD settings.format) sql ↔
      q.resolve d.adapter params = .ok sql := by
  constructor
  · intro hsends
    cases hresolve : q.resolve d.adapter params with
    | error e =>
      have hrows := hsends ⟨fun _ => .ok []⟩
      rw [report_run h verbose hurl hd, hresolve] at hrows
      simp [Report.followedBy, Report.ofExcept, answered] at hrows
    | ok sql' =>
      have hrejected := hsends ⟨fun _ => .error ""⟩
      rw [report_run h verbose hurl hd, hresolve] at hrejected
      simp [Report.followedBy, answered] at hrejected
      rw [hrejected]
  · intro hresolve backend
    rw [report_run h verbose hurl hd, hresolve]

theorem prepare_connected_iff :
    (∀ backend, q.prepare (d.connected backend) params = .ok ⟨sql, backend⟩) ↔
      q.resolve d.adapter params = .ok sql := by
  simp only [prepare_connected]
  constructor
  · intro hprepare
    cases hresolve : q.resolve d.adapter params with
    | error e => simpa [hresolve, Except.map] using hprepare .echo
    | ok sql' => simpa [hresolve, Except.map] using hprepare .echo
  · intro hresolve backend
    rw [hresolve]
    rfl

theorem eq_of_mem_labelled {label line : String} {keys : List String}
    (h : line ∈ Query.labelled label keys) : line = label ++ ", ".intercalate keys := by
  unfold Query.labelled at h
  split at h
  · cases h
  · exact List.mem_singleton.mp h

/-- Only a resolved text stands in a line that starts with a space. -/
theorem head?_of_mem_verdict {a : Adapter} {v : Validation}
    (hunresolved : ∀ sql, q.resolve a params ≠ .ok sql) :
    ∀ line ∈ "" :: q.verdict a params v, line.toList.head? ≠ some ' ' := by
  intro line hline
  obtain rfl | hline := List.mem_cons.mp hline
  · decide
  simp only [Query.verdict, List.mem_append] at hline
  obtain (hmissing | homitted) | hresolved := hline
  · simp [eq_of_mem_labelled hmissing]
  · simp [eq_of_mem_labelled homitted]
  · split at hresolved
    · split at hresolved
      · next sql hsql => exact absurd hsql (hunresolved sql)
      · simp [List.mem_singleton.mp hresolved]
    · cases hresolved

theorem verdict_of_valid {a : Adapter} {v : Validation} (hmissing : v.missing = []) :
    q.verdict a params v = Query.labelled "Omitted fragments: " v.unresolvedOptional ++
      match q.resolve a params with
      | .ok sql => ["Resolved SQL:", "  " ++ sql]
      | .error e => ["Unresolvable: " ++ e.message] := by
  simp only [Query.verdict, if_pos (Validation.isValid_iff.mpr hmissing), hmissing, Query.labelled]
  rfl

theorem verdict_of_missing {a : Adapter} {v : Validation} (hmissing : v.missing ≠ []) :
    q.verdict a params v = ("Missing: " ++ ", ".intercalate v.missing) ::
      Query.labelled "Omitted fragments: " v.unresolvedOptional := by
  have hvalid : ¬v.isValid = true := hmissing ∘ Validation.isValid_iff.mp
  have hempty : ¬v.missing.isEmpty = true := hvalid
  simp only [Query.verdict, if_neg hvalid, List.append_nil]
  rw [Query.labelled, if_neg hempty]
  rfl

theorem shows_iff (h : around.Selects settingsFile settings source q params) (verbose : Bool) :
    Shows ⟨settingsFile, verbose, .inspect source (some d)⟩ around sql ↔
      q.resolve d.adapter params = .ok sql := by
  rw [Shows, report_inspect h]
  constructor
  · rintro ⟨hfailure, hsuffix⟩
    cases hvalidate : q.template.validate params with
    | error e => simp [hvalidate] at hfailure
    | ok v =>
      simp only [hvalidate] at hsuffix
      have hlast : ("" :: q.verdict d.adapter params v).getLast? = some ("  " ++ sql) := by
        obtain ⟨before, hbefore⟩ := hsuffix
        have hget := congrArg List.getLast? hbefore
        simpa [List.getLast?_append] using hget.symm
      cases hresolve : q.resolve d.adapter params with
      | error e =>
        have hhead := head?_of_mem_verdict (by simp [hresolve]) _ (List.mem_of_getLast? hlast)
        simp at hhead
      | ok sql' =>
        obtain ⟨v', hv', hmissing⟩ := Adapter.validate_of_resolve hresolve
        obtain rfl : v = v' := Except.ok.inj (hvalidate.symm.trans hv')
        rw [verdict_of_valid hmissing, hresolve, ← List.cons_append, List.getLast?_append] at hlast
        have hline : "  " ++ sql' = "  " ++ sql := Option.some.inj hlast
        rw [String.append_right_inj] at hline
        rw [hline]
  · intro hresolve
    obtain ⟨v, hvalidate, hmissing⟩ := Adapter.validate_of_resolve hresolve
    rw [hvalidate]
    refine ⟨rfl, ?_⟩
    change _ <:+ q.description ++ "" :: q.verdict d.adapter params v
    rw [verdict_of_valid hmissing, hresolve]
    exact ((List.suffix_append _ _).trans (List.suffix_cons _ _)).trans (List.suffix_append _ _)

/-- Where there is no resolved text, two commands fail in the same way, one of them before it sends
anything. -/
theorem report_of_unresolved (h : around.Selects settingsFile settings source q params)
    (verbose : Bool) {url : String} (hurl : Dialect.ofUrl? url = some d) (hd : d ≠ .mssql)
    (format : Option OutputFormat) {e : Error} (hresolve : q.resolve d.adapter params = .error e) :
    report ⟨settingsFile, verbose, .render source (some d)⟩ around = ⟨[], some (.failed e)⟩ ∧
      ∀ backend, q.prepare (d.connected backend) params = .error e ∧
        report ⟨settingsFile, verbose, .run source (some url) format⟩ (around.connectedTo backend) =
          ⟨if verbose then ["Connecting to: " ++ url] else [], some (.failed e)⟩ := by
  refine ⟨by rw [report_render h, hresolve], fun backend => ⟨?_, ?_⟩⟩
  · rw [prepare_connected, hresolve]
    rfl
  · rw [report_run h verbose hurl hd, hresolve]
    simp [Report.followedBy]

/-- For one query and its parameters, the text that is printed is the text that is shown and the text
that is sent to a database of the same dialect. Where validation finds values missing, it is those that
are shown, and no text is printed or sent; where it fails, every command fails with its error. -/
theorem commands_agree (h : around.Selects settingsFile settings source q params) {url : String}
    (hurl : Dialect.ofUrl? url = some d) (hd : d ≠ .mssql) (verbose : Bool)
    (format : Option OutputFormat) :
    (∀ sql,
      (Command.answer (some (.invoke ⟨settingsFile, verbose, .render source (some d)⟩)) around =
          ⟨0, sql ++ "\n", ""⟩ ↔
        Shows ⟨settingsFile, verbose, .inspect source (some d)⟩ around sql) ∧
      (Shows ⟨settingsFile, verbose, .inspect source (some d)⟩ around sql ↔
        Sends ⟨settingsFile, verbose, .run source (some url) format⟩ around
          (if verbose then ["Connecting to: " ++ url] else []) (format.getD settings.format) sql) ∧
      (Sends ⟨settingsFile, verbose, .run source (some url) format⟩ around
          (if verbose then ["Connecting to: " ++ url] else []) (format.getD settings.format) sql ↔
        ∀ backend, q.prepare (d.connected backend) params = .ok ⟨sql, backend⟩)) ∧
    (∀ v, q.template.validate params = .ok v → v.missing ≠ [] →
      report ⟨settingsFile, verbose, .inspect source (some d)⟩ around =
        ⟨q.description ++ "" :: ("Missing: " ++ ", ".intercalate v.missing) ::
          Query.labelled "Omitted fragments: " v.unresolvedOptional, none⟩ ∧
      report ⟨settingsFile, verbose, .render source (some d)⟩ around =
        ⟨[], some (.failed (.missing v.missing))⟩ ∧
      ∀ backend, q.prepare (d.connected backend) params = .error (.missing v.missing) ∧
        report ⟨settingsFile, verbose, .run source (some url) format⟩ (around.connectedTo backend) =
          ⟨if verbose then ["Connecting to: " ++ url] else [],
            some (.failed (.missing v.missing))⟩) ∧
    ∀ e, q.template.validate params = .error e →
      report ⟨settingsFile, verbose, .inspect source (some d)⟩ around =
        ⟨q.description, some (.failed e)⟩ ∧
      report ⟨settingsFile, verbose, .render source (some d)⟩ around = ⟨[], some (.failed e)⟩ ∧
      ∀ backend, q.prepare (d.connected backend) params = .error e ∧
        report ⟨settingsFile, verbose, .run source (some url) format⟩ (around.connectedTo backend) =
          ⟨if verbose then ["Connecting to: " ++ url] else [], some (.failed e)⟩ := by
  refine ⟨fun sql => ⟨?_, ?_, ?_⟩, fun v hvalidate hmissing => ⟨?_, ?_⟩,
    fun e hvalidate => ⟨?_, ?_⟩⟩
  · rw [answer_render_iff h, shows_iff h]
  · rw [shows_iff h, sends_iff h verbose hurl hd]
  · rw [sends_iff h verbose hurl hd, prepare_connected_iff]
  · rw [report_inspect h, hvalidate]
    simp only [verdict_of_missing hmissing]
  · exact report_of_unresolved h verbose hurl hd format
      (Adapter.resolve_of_missing hvalidate hmissing)
  · rw [report_inspect h, hvalidate]
  · exact report_of_unresolved h verbose hurl hd format (Adapter.resolve_of_validate_error hvalidate)

theorem commands_agree_quoted_text :
    Sends ⟨none, true, .run ⟨some "SELECT :a", none, none, some "\x7b\"a\": \"it's\"\x7d"⟩
        (some "sqlite::memory:") none⟩
      ⟨⟨fun _ => .error .notFound⟩, none, none, fun _ url => .error (.connection url)⟩
      ["Connecting to: sqlite::memory:"] .table "SELECT 'it''s'" := by
  obtain ⟨params, hparams⟩ : ∃ params,
      Source.parameters ⟨some "SELECT :a", none, none, some "\x7b\"a\": \"it's\"\x7d"⟩
        ⟨fun _ => .error .notFound⟩ = .ok params := by
    apply drop_eq_ok_iff.mp
    decide +kernel
  have hselects : Surroundings.Selects
      ⟨⟨fun _ => .error .notFound⟩, none, none, fun _ url => .error (.connection url)⟩ none .default
      ⟨some "SELECT :a", none, none, some "\x7b\"a\": \"it's\"\x7d"⟩ (.ofText "SELECT :a") params :=
    ⟨rfl, rfl, hparams⟩
  have hurl : Dialect.ofUrl? "sqlite::memory:" = some .sqlite := by decide +kernel
  have hprinted : Command.answer (some (.invoke ⟨none, true, .render
      ⟨some "SELECT :a", none, none, some "\x7b\"a\": \"it's\"\x7d"⟩ (some .sqlite)⟩))
      ⟨⟨fun _ => .error .notFound⟩, none, none, fun _ url => .error (.connection url)⟩ =
        ⟨0, "SELECT 'it''s'" ++ "\n", ""⟩ := by
    decide +kernel
  obtain ⟨hagree, -, -⟩ := commands_agree hselects hurl (by decide) true none
  exact (hagree _).2.1.mp ((hagree _).1.mp hprinted)

end Reports

end Invocation

end SqlTemplate
