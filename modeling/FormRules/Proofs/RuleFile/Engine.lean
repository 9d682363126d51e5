import FormRules.Proofs.Engine.Draft
import FormRules.Proofs.Message.Overrides
import FormRules.Proofs.Reuse
import FormRules.Proofs.RuleFile.Shape
import FormRules.Proofs.RuleSet.Normal

/-!
# Engines from rule files

A file that is read has a document, whose keys are texts, or an issue. It is loaded if checking it
gives no issue, and then an engine can be made from it with every set-up whose parts are there
(`RuleFile.engine_of_file`): its rules are the normalized forms of the document, and its templates
are those that its composer had, overridden first by the file and then by what is given besides.
-/

namespace FormRules

open Run (eq_ok_of_bind)

/-! ## Loading a file that is read -/

namespace RuleFile

variable {tools : Tools} {f : RuleFile}

/-- A document that is read has texts as keys. -/
theorem textKeyed_of_read {document : Value} (h : f.read tools = .ok (.ok document)) :
    document.TextKeyed := by
  obtain ⟨v, -, -, hkeyed⟩ := read_eq_ok_iff.mp h
  exact Value.textKeyed_of_textKeys v hkeyed

/-- The checker fails on the document, so its issues cannot be told. -/
def Untold (tools : Tools) (r : Except Issue Value) (fault : Fault) : Prop :=
  ∃ document, r = .ok document ∧ tools.check RuleDocument.schema [] document = .error fault

/-- A file that cannot be read has the issue that says so. -/
theorem issues_of_issue {issue : Issue} (h : f.read tools = .ok (.error issue)) :
    f.issues tools = .ok [issue] := by
  rw [issues, h]
  rfl

theorem issues_of_document {document : Value} (h : f.read tools = .ok (.ok document)) :
    f.issues tools = RuleDocument.issues tools.check document f.name := by
  rw [issues, h]
  rfl

/-- A file without issues has a document. -/
theorem document_of_issues {r : Except Issue Value} (h : f.read tools = .ok r)
    (hissues : f.issues tools = .ok []) : ∃ document, r = .ok document := by
  cases r with
  | error issue =>
    rw [issues_of_issue h] at hissues
    cases hissues
  | ok document => exact ⟨document, rfl⟩

/-- Loading a file without issues gives what its document declares. -/
theorem load_of_issues {document : Value} (h : f.read tools = .ok (.ok document))
    (hissues : f.issues tools = .ok []) (w : World) :
    (f.load tools w).1 = .ok (.ofValue f.name document) := by
  rw [issues_of_document h] at hissues
  have hdeclarations : f.declarations tools = .ok (.ok (.ofValue f.name document)) := by
    unfold declarations
    rw [h]
    change (RuleDocument.issues tools.check document f.name >>= _) = _
    rw [hissues]
    rfl
  unfold load
  rw [hdeclarations]
  rfl

/-- Loading fails as checking does, or with the issues that checking gives. -/
theorem load_error_iff (w : World) (fault : Fault) : (f.load tools w).1 = .error fault ↔
    f.issues tools = .error fault ∨
      ∃ issues ≠ [], f.issues tools = .ok issues ∧ fault = .invalidRuleFile issues := by
  obtain ⟨d, hd⟩ := f.load_fst tools w
  rw [hd]
  rcases f.issues tools with cause | _ | ⟨issue, issues⟩
  · simp [bind, Except.bind]
  · simp [bind, Except.bind, pure, Except.pure]
  · simp [bind, Except.bind, eq_comm]

/-- A file can be loaded if it has no issues. -/
theorem load_isOk_iff (w : World) :
    (∃ d, (f.load tools w).1 = .ok d) ↔ f.issues tools = .ok [] := by
  obtain ⟨d, hd⟩ := f.load_fst tools w
  rw [hd]
  rcases f.issues tools with fault | _ | ⟨issue, issues⟩
  · simp [bind, Except.bind]
  · simp [bind, Except.bind, pure, Except.pure]
  · simp [bind, Except.bind]

variable (hkeywords : tools.check.Keywords)
include hkeywords

/-- The issues of a file that is read cannot be told just if the checker fails. -/
theorem issues_error_iff_untold {r : Except Issue Value} (h : f.read tools = .ok r)
    (fault : Fault) : f.issues tools = .error fault ↔ Untold tools r fault := by
  cases r with
  | error issue => simp [issues_of_issue h, Untold]
  | ok document =>
    rw [issues_of_document h]
    simpa [Untold] using RuleDocument.issues_error_iff_check hkeywords (textKeyed_of_read h) fault

theorem shaped_of_issues {document : Value} (h : f.read tools = .ok (.ok document))
    (hissues : f.issues tools = .ok []) : RuleDocument.Shaped document :=
  RuleDocument.shaped_of_issues hkeywords (textKeyed_of_read h) (issues_of_document h ▸ hissues)

end RuleFile

/-! ## Normalizing the forms of a document -/

namespace RuleDocument

variable {document : Value}

/-- What the schema takes for rules, normalizing takes for rules. -/
theorem isRules_of_isRules {v : Value} (h : isRules v) : v.IsRules := by
  cases v with
  | text s => exact .text s
  | list xs =>
    refine .sequence rfl fun x hx => ?_
    have htext : isText x := List.all_eq_true.mp h x hx
    cases x with
    | text s => exact ⟨s, rfl⟩
    | _ => cases htext
  | _ => cases h

/-- What the schema takes for a form has fields that can be normalized. -/
theorem isFields_of_isForm {v : Value} (h : isForm v) : v.IsFields := by
  cases v with
  | null => exact .null
  | map es => exact .map fun e he => isRules_of_isRules (List.all_eq_true.mp h e he)
  | _ => cases h

/-- A form of a document that is named by a text has short names, and so have its fields. -/
theorem not_longNamed (form : String) {v : Value} (hkeyed : v.TextKeyed) (h : isForm v) :
    ¬(Value.text form).LongNamed v := by
  cases v with
  | null => exact not_false
  | map es =>
    exact Value.not_longNamed_text form fun e he => (Value.textKeyed_map_iff.mp hkeyed e he).1
  | _ => cases h

/-- The declarations of a document that has the right shape can be normalized, and come to the same
as its forms. -/
theorem normalize_formsValue {c : Config} (hc : c.ruleDelimiter.isEmpty = false)
    (hkeyed : document.TextKeyed) (hshaped : Shaped document) (source : String) :
    ∃ forms rules, Table.find (.text "forms") (entriesOf document) = some forms ∧
      c.normalize forms = .ok rules ∧ c.normalize (ofValue source document).formsValue =
        .ok rules := by
  obtain ⟨es, rfl, ⟨forms, hfind, entries, rfl, hforms⟩, -, -⟩ := hshaped
  have hformsKeyed := Value.textKeyed_map_iff.mp (hkeyed.find hfind)
  have hfields : ∀ e ∈ entries, e.2.IsFields ∧ ¬e.1.LongNamed e.2 := by
    intro e he
    obtain ⟨⟨form, hform⟩, hv⟩ := hformsKeyed e he
    rw [hform]
    exact ⟨isFields_of_isForm (hforms e he), not_longNamed form hv (hforms e he)⟩
  refine ⟨.map entries, c.normalized entries, hfind,
    Config.normalize_eq_ok (fun _ _ _ _ _ _ => hc) hfields, ?_⟩
  have hvalue : (ofValue source (.map es)).formsValue =
      .map (entries.map fun e => (e.1, .map (entriesOf e.2))) := by
    simp [formsValue, ofValue, section?, entriesOf, hfind, Table.mapValues, Value.ofTable]
  rw [hvalue, Config.normalize_eq_ok fun _ _ _ _ _ _ => hc]
  · simp [Config.normalized, entriesOf]
  · refine List.forall_mem_map.mpr fun e he => ?_
    obtain ⟨hshape, hshort⟩ := hfields e he
    exact ⟨hshape.map_entriesOf, mt hshape.longNamed_map_iff.mp hshort⟩

/-- The templates of a document that has the right shape are texts. -/
theorem isText_template (hshaped : Shaped document) :
    ∀ o ∈ Override.ofEntries (section? "messages" document), isText o.template := by
  obtain ⟨es, rfl, -, -, hmessages⟩ := hshaped
  intro o ho
  obtain ⟨e, he, ho⟩ := List.mem_flatMap.mp ho
  unfold section? at he
  split at he
  · next v hv =>
    obtain ⟨messages, rfl, htemplates⟩ := hmessages v hv
    have htemplate := htemplates e he
    obtain ⟨key, v⟩ := e
    cases v with
    | text s =>
      obtain rfl := List.mem_singleton.mp ho
      rfl
    | map ts =>
      obtain ⟨t, ht, rfl⟩ := List.mem_map.mp ho
      exact List.all_eq_true.mp htemplate t ht
    | _ => cases htemplate
  · cases he

end RuleDocument

/-! ## Set-ups that can be used -/

/-- What the set-up names is there, and the values that it gives are those of an accessor; the
composer is the given one. -/
structure Setup.Usable (s : Setup) (w : World) (c : Composer) : Prop where
  values : match s.values with
    | .named name => ∃ r, w.accessors.find name = .ok r
    | .given v => ∃ a, Accessor.ofValue v = .ok a
  catalog : ∀ name, s.catalog = some name → ∃ r, w.catalogs.find name = .ok r
  composer : match s.composer with
    | some name => ∃ r, w.composers.find name = .ok r ∧ w.composers.get? r = some c
    | none => c = .standard

/-- The parts of a usable set-up are found, its accessor and its composer among them. -/
theorem Setup.Usable.parts {s : Setup} {w : World} {c : Composer} (h : s.Usable w c) :
    ∃ p a, s.parts w = (.ok p, w) ∧ p.config = s.config ∧ Parts.accessor p.values = .ok a ∧
      p.composer.content w.composers = some c := by
  obtain ⟨values, a, hvalues, haccessor⟩ : ∃ values a, s.values.find w.accessors = .ok values ∧
      Parts.accessor values = .ok a := by
    have hvalues := h.values
    cases hsource : s.values with
    | named name =>
      rw [hsource] at hvalues
      obtain ⟨r, hr⟩ := hvalues
      exact ⟨.inl r, .shared r, by rw [ValueSource.find, hr]; rfl, rfl⟩
    | given v =>
      rw [hsource] at hvalues
      obtain ⟨a, ha⟩ := hvalues
      exact ⟨.inr v, .fresh a, rfl, by rw [Parts.accessor, ha]; rfl⟩
  obtain ⟨catalog, hcatalog⟩ : ∃ slot, Setup.part w.catalogs .builtins s.catalog = .ok slot := by
    cases hname : s.catalog with
    | none => exact ⟨_, rfl⟩
    | some name =>
      obtain ⟨r, hr⟩ := h.catalog name hname
      exact ⟨.shared r, by rw [Setup.part, hr]; rfl⟩
  obtain ⟨composer, hcomposer, hcontent⟩ : ∃ slot, Setup.part w.composers .standard s.composer =
    .ok slot ∧
      slot.content w.composers = some c := by
    have hcomposer := h.composer
    cases hname : s.composer with
    | none =>
      rw [hname] at hcomposer
      exact ⟨.fresh .standard, rfl, congrArg some hcomposer.symm⟩
    | some name =>
      rw [hname] at hcomposer
      obtain ⟨r, hr, hc⟩ := hcomposer
      exact ⟨.shared r, by rw [Setup.part, hr]; rfl, hc⟩
  refine ⟨⟨s.config, values, catalog, composer⟩, a, ?_, rfl, haccessor, hcontent⟩
  rw [Setup.parts_apply, hvalues, hcatalog, hcomposer]
  rfl

/-- The draft has a configuration, rules and a composer, which it may share with the world. -/
structure Draft.Has (d : Draft) (w : World) (config : Config) (rules : RuleSet) (c : Composer) :
    Prop where
  config : d.config = config
  rules : d.rules = rules
  composer : d.composer.content w.composers = some c

namespace Draft.Has

variable {d : Draft} {w : World} {config : Config} {rules : RuleSet} {c : Composer}
    {messages : Value}
  (hd : d.Has w config rules c)

include hd

/-- A draft refuses overrides that its composer refuses. -/
theorem override_error {fault : Fault} (h : (c.addGiven messages).2 = .error fault) :
    (d.override messages w).1 = .error fault := by
  obtain ⟨-, -, hc⟩ := hd
  obtain ⟨config, rules, accessor, catalog, composer⟩ := d
  rcases hadded : c.addGiven messages with ⟨c', done⟩
  rw [hadded] at h
  obtain rfl : done = .error fault := h
  cases composer with
  | fresh c₀ =>
    obtain rfl : c₀ = c := Option.some.inj hc
    simp [override, hadded, Run.bind_apply]
  | shared r =>
    have hr : w.composers.get? r = some c := hc
    simp [override, hadded, Run.bind_apply, Run.composer_apply, Run.known, hr, -bind_pure_comp]

/-- A draft takes overrides by its composer. -/
theorem override_ok (h : (c.addGiven messages).2 = .ok ()) :
    ∃ d' v, d.override messages w = (.ok d', v) ∧
      d'.Has v config rules (c.addGiven messages).1 := by
  obtain ⟨rfl, rfl, hc⟩ := hd
  obtain ⟨config, rules, accessor, catalog, composer⟩ := d
  rcases hadded : c.addGiven messages with ⟨c', done⟩
  rw [hadded] at h
  obtain rfl : done = .ok () := h
  cases composer with
  | fresh c₀ =>
    obtain rfl : c₀ = c := Option.some.inj hc
    refine ⟨⟨config, rules, accessor, catalog, .fresh c'⟩, w, ?_, rfl, rfl, rfl⟩
    simp [override, hadded, Run.bind_apply]
  | shared r =>
    have hr : w.composers.get? r = some c := hc
    refine ⟨⟨config, rules, accessor, catalog, .shared r⟩,
      { w with composers := w.composers.put r c' }, ?_, rfl, rfl, Table.get?_set_self _ _ _⟩
    simp [override, hadded, Run.bind_apply, Run.composer_apply, Run.known, hr, -bind_pure_comp]

/-- The engine of a draft that is placed, and its composer. -/
theorem engine_placed (name : String) : ∃ e, (d.placed name w).engines.get? name = some e ∧
    e.config = config ∧ e.rules = rules ∧ (d.placed name w).composers.get? e.composer = some c :=
  ⟨_, Table.get?_set_self _ _ _, hd.config, hd.rules, (get?_settle _ _ _).trans hd.composer⟩

end Draft.Has

namespace RuleFile

open RuleDocument (entriesOf section?)

variable {tools : Tools} (hkeywords : tools.check.Keywords) {f : RuleFile} {s : Setup} {w : World}
  {c : Composer}

include hkeywords in
/-- The messages of a file without issues can be applied. -/
theorem overrideAll_messages {document : Value} (hread : f.read tools = .ok (.ok document))
    (hissues : f.issues tools = .ok []) (c : Composer) :
    (c.overrideAll (section? "messages" document)).2 = .ok () := by
  cases h : (c.overrideAll (section? "messages" document)).2 with
  | ok _ => rfl
  | error fault =>
    obtain ⟨-, o, ho, hlong⟩ := (c.overrideAll_longIf _ fault).mp h
    have htext := RuleDocument.isText_template (shaped_of_issues hkeywords hread hissues) o ho
    exact absurd hlong (RuleDocument.not_long_of_isText htext)

include hkeywords in
/-- A file without issues makes a draft with its rules and messages, which takes what is given
besides. -/
theorem draft_of_file {document : Value} (hread : f.read tools = .ok (.ok document))
    (hissues : f.issues tools = .ok [])
    (hdelimiter : s.config.ruleDelimiter.isEmpty = false) (husable : s.Usable w c) :
    ∃ forms rules, Table.find (.text "forms") (entriesOf document) = some forms ∧
      s.config.normalize forms = .ok rules ∧
      ∃ (d : Draft) (v : World),
        d.Has v s.config rules (c.overrideAll (section? "messages" document)).1 ∧
        ∀ messages name, Run.newEngineFromFile tools name s f messages w =
          (d.override messages >>= fun d => Run.modify (d.placed name)) v := by
  obtain ⟨p, a, hparts, hconfig, haccessor, hcomposer⟩ := husable.parts
  obtain ⟨forms, rules, hforms, hnormalize, hrules⟩ := RuleDocument.normalize_formsValue hdelimiter
    (textKeyed_of_read hread) (shaped_of_issues hkeywords hread hissues) f.name
  have hload : f.load tools w = (.ok (.ofValue f.name document), (f.load tools w).2) := by
    rw [← load_of_issues hread hissues w]
  have hdraft : p.draft (RuleDocument.ofValue f.name document).formsValue =
      .ok ⟨s.config, rules, a, p.catalog, p.composer⟩ := by
    rw [Parts.draft, haccessor, hconfig]
    change (s.config.normalize _ >>= _) = _
    rw [hrules]
    rfl
  have hhas : (⟨s.config, rules, a, p.catalog, p.composer⟩ : Draft).Has
      (f.load tools w).2 s.config rules c := by
    -- loading is noted in the journal, so the composer is the one that the set-up found
    have hsame : Run.Fixes World.composers (f.load tools) := Run.fixes_load (fun _ _ => rfl) tools f
    refine ⟨rfl, rfl, ?_⟩
    rw [hsame w]
    exact hcomposer
  have hgiven := c.addGiven_map (section? "messages" document)
  have hdone : (c.addGiven (.map (section? "messages" document))).2 = .ok () := by
    rw [hgiven]
    exact overrideAll_messages hkeywords hread hissues c
  obtain ⟨d, v, hoverride, hd⟩ := hhas.override_ok hdone
  refine ⟨forms, rules, hforms, hnormalize, d, v, hgiven ▸ hd, fun messages name => ?_⟩
  have hmessages : (RuleDocument.ofValue f.name document).messagesValue =
      .map (section? "messages" document) := rfl
  unfold Run.newEngineFromFile
  rw [Run.bind_of_ok hparts, Run.bind_of_ok hload,
    Run.bind_of_ok (v := (f.load tools w).2) (by rw [hdraft]; rfl), hmessages,
    Run.bind_of_ok hoverride]

/-- The template that is in force for a predicate on a form, where overrides of a file and then
others have been applied to a composer: those of the form go before the general ones, and in each
scope the later ones go before the earlier. -/
def templateInForce (given file : List Override) (c : Composer) (method : String) (form : Value) :
    Option String :=
  (Override.last? given (some form) method).or <| (Override.last? file (some form) method).or <|
    (c.inScope (some form) method).or <| (Override.last? given none method).or <|
      (Override.last? file none method).or <| c.inScope none method

/-- A composer has the templates in force after it took the overrides of a file and then others. -/
theorem templateFor_overrideAll {file given : List (Value × Value)}
    (hfile : (c.overrideAll file).2 = .ok ())
    (hgiven : ((c.overrideAll file).1.overrideAll given).2 = .ok ()) (method : String)
    {form : Value}
    (hform : form.hashable) (hnull : form ≠ .null) :
    ((c.overrideAll file).1.overrideAll given).1.templateFor method form =
      .ok (templateInForce (Override.ofEntries given) (Override.ofEntries file) c method form) := by
  have hscope (scope : Option Value) :
      ((c.overrideAll file).1.overrideAll given).1.inScope scope method =
        (Override.last? (Override.ofEntries given) scope method).or
          ((Override.last? (Override.ofEntries file) scope method).or
            (c.inScope scope method)) := by
    rw [Composer.inScope_overrideAll hgiven, Composer.inScope_overrideAll hfile]
  rw [Composer.templateFor_eq _ method hform hnull, hscope, hscope, templateInForce]
  simp only [Option.or_assoc]

section FromFile

variable {document : Value} (hread : f.read tools = .ok (.ok document))
    (hissues : f.issues tools = .ok [])
  (hdelimiter : s.config.ruleDelimiter.isEmpty = false) (husable : s.Usable w c)
  (given : List (Value × Value)) (name : String)

include hkeywords hread hissues hdelimiter husable

/-- Only a template that is given can be a reason why a file without issues makes no engine. -/
theorem newEngine_error_iff (fault : Fault) :
    (Run.newEngineFromFile tools name s f (.map given) w).1 = .error fault ↔
      fault = .tooManyDigits ∧ ∃ o ∈ Override.ofEntries given, o.template.Long := by
  obtain ⟨-, rules, -, -, d, v, hd, hmake⟩ :=
    draft_of_file hkeywords hread hissues hdelimiter husable
  rw [hmake, ← Composer.overrideAll_longIf _ given fault, ← Composer.addGiven_map]
  cases hadded : ((c.overrideAll (section? "messages" document)).1.addGiven (.map given)).2 with
  | error cause =>
    have hoverride := hd.override_error hadded
    rw [Run.bind_of_error (v := (d.override (.map given) v).2) (by rw [← hoverride])]
  | ok _ =>
    obtain ⟨d', v', hoverride, -⟩ := hd.override_ok hadded
    rw [Run.bind_of_ok hoverride]
    exact ⟨nofun, nofun⟩

/-- The engine that is made from a file without issues. -/
theorem newEngine_of_file (hgiven : ∀ o ∈ Override.ofEntries given, ¬o.template.Long) :
    ∃ forms e m, Table.find (.text "forms") (entriesOf document) = some forms ∧
      (Run.newEngineFromFile tools name s f (.map given) w).1 = .ok () ∧
      (Run.newEngineFromFile tools name s f (.map given) w).2.engines.get? name = some e ∧
      (Run.newEngineFromFile tools name s f (.map given) w).2.composers.get? e.composer = some m ∧
      e.config = s.config ∧ s.config.normalize forms = .ok e.rules ∧
      ∀ (method : String) (form : Value), form.hashable → form ≠ .null →
        m.templateFor method form = .ok (templateInForce (Override.ofEntries given)
          (Override.ofEntries (section? "messages" document)) c method form) := by
  obtain ⟨forms, rules, hforms, hnormalize, d, v, hd, hmake⟩ :=
    draft_of_file hkeywords hread hissues hdelimiter husable
  set fromFile := (c.overrideAll (section? "messages" document)).1 with hfromFile
  -- what is refused depends on the templates alone and not on the composer
  have hadded : (fromFile.overrideAll given).2 = .ok () := by
    cases h : (fromFile.overrideAll given).2 with
    | ok _ => rfl
    | error cause =>
      obtain ⟨-, o, ho, hlong⟩ := (fromFile.overrideAll_longIf given cause).mp h
      exact absurd hlong (hgiven o ho)
  have hdone : (fromFile.addGiven (.map given)).2 = .ok () := by
    rw [Composer.addGiven_map]
    exact hadded
  obtain ⟨d', v', hoverride, hd'⟩ := hd.override_ok hdone
  obtain ⟨e, he, hconfig, hrules, hcomposer⟩ := hd'.engine_placed name
  rw [Composer.addGiven_map] at hcomposer
  have hrun : Run.newEngineFromFile tools name s f (.map given) w =
      (.ok (), d'.placed name v') := by
    rw [hmake, Run.bind_of_ok hoverride]
    rfl
  rw [hrun]
  exact ⟨forms, e, _, hforms, rfl, he, hcomposer, hconfig, hrules ▸ hnormalize,
    fun method form hform hnull =>
    templateFor_overrideAll
      (overrideAll_messages hkeywords hread hissues c) hadded method hform hnull⟩

end FromFile

include hkeywords in
/-- **From a file to an engine.** Let a rule file be read, and let the checker follow the keywords.
The file is loaded if checking it gives no issue, and otherwise its issues are the fault; neither
comes of it just if the checker fails. If it is loaded, every set-up that can be used makes an
engine, unless a template that is given besides is too long a number: the rules of the engine are
the normalized forms of the document, where null is a form without fields, and on each form it has
the templates that are given, or else those of the file, or else those that its composer had before,
first among those of the form itself and then among the general ones. -/
theorem engine_of_file {r : Except Issue Value} (hread : f.read tools = .ok r) (w : World) :
    ((∃ d, (f.load tools w).1 = .ok d) ↔ (f.check tools w).1 = .ok []) ∧
      (∀ fault, (f.load tools w).1 = .error fault ↔
        (∃ issues ≠ [], (f.check tools w).1 = .ok issues ∧ fault = .invalidRuleFile issues) ∨
          Untold tools r fault) ∧
      (∀ fault, (f.check tools w).1 = .error fault ↔ Untold tools r fault) ∧
      ((f.check tools w).1 = .ok [] → ∃ document forms, r = .ok document ∧
        Table.find (.text "forms") (entriesOf document) = some forms ∧
        ∀ (s : Setup) (c : Composer) (given : List (Value × Value)) (name : String),
          s.config.ruleDelimiter.isEmpty = false → s.Usable w c →
            (∀ fault, (Run.newEngineFromFile tools name s f (.map given) w).1 = .error fault ↔
              fault = .tooManyDigits ∧ ∃ o ∈ Override.ofEntries given, o.template.Long) ∧
            ((∀ o ∈ Override.ofEntries given, ¬o.template.Long) → ∃ e m,
              (Run.newEngineFromFile tools name s f (.map given) w).1 = .ok () ∧
              (Run.newEngineFromFile tools name s f (.map given) w).2.engines.get? name = some e ∧
              (Run.newEngineFromFile tools name s f (.map given) w).2.composers.get? e.composer =
                some m ∧
              e.config = s.config ∧ s.config.normalize forms = .ok e.rules ∧
              ∀ (method : String) (form : Value), form.hashable → form ≠ .null →
                m.templateFor method form = .ok (templateInForce (Override.ofEntries given)
                  (Override.ofEntries (section? "messages" document)) c method form))) := by
  rw [check_fst]
  have huntold := issues_error_iff_untold hkeywords hread
  refine ⟨load_isOk_iff w, fun fault => ?_, huntold, fun hissues => ?_⟩
  · rw [load_error_iff, huntold, or_comm]
  · obtain ⟨document, rfl⟩ := document_of_issues hread hissues
    obtain ⟨forms, hforms⟩ : ∃ forms, Table.find (.text "forms") (entriesOf document) =
      some forms := by
      obtain ⟨es, rfl, ⟨forms, hforms, -⟩, -⟩ := shaped_of_issues hkeywords hread hissues
      exact ⟨forms, hforms⟩
    refine ⟨document, forms, rfl, hforms, fun s c given name hdelimiter husable =>
      ⟨newEngine_error_iff hkeywords hread hissues hdelimiter husable given name, fun hgiven => ?_⟩⟩
    obtain ⟨forms', e, m, hforms', hengine⟩ :=
      newEngine_of_file hkeywords hread hissues hdelimiter husable given name hgiven
    obtain rfl : forms' = forms := Option.some.inj (hforms'.symm.trans hforms)
    exact ⟨e, m, hengine⟩

end RuleFile

namespace GuestForm

open RuleDocument (section?)
open Run (newEngineFromFile)

/-- A file with a form that has no fields, and with messages for all forms and for this one. -/
def file : RuleFile :=
  let lines := ["forms:", "  guest:", "messages:", "  required: Missing.", "  guest:",
    "    email: Ask them."]
  ⟨"rules.yaml", some (("\n".intercalate lines).toUTF8.toList.map UInt8.toNat)⟩

/-- Templates for all forms that are given besides the file. -/
def given : List (Value × Value) :=
  [(.text "required", .text "Needed."), (.text "email", .text "Check it.")]

/-- The template in force on the form. -/
def template (document : Value) (method : String) : Option String :=
  RuleFile.templateInForce (Override.ofEntries given)
    (Override.ofEntries (section? "messages" document))
    .standard method (.text "guest")

/-- The file is read, and these templates are in force. -/
theorem read_file : ∃ document, file.read .standard = .ok (.ok document) ∧
    template document "required" = some "Needed." ∧
      template document "email" = some "Ask them." := by
  have htemplates : ((file.read .standard).toOption.bind Except.toOption).map
      (fun document => (template document "required", template document "email")) =
        some (some "Needed.", some "Ask them.") := by decide +kernel
  obtain ⟨document, hdocument, htemplates⟩ := Option.map_eq_some_iff.mp htemplates
  obtain ⟨r, hread, hr⟩ := Option.bind_eq_some_iff.mp hdocument
  obtain rfl := Attempt.eq_ok_of_toOption hr
  exact ⟨document, Attempt.eq_ok_of_toOption hread, Prod.mk.inj htemplates⟩

theorem issues_file : file.issues .standard = .ok [] := by
  have hissues : (file.issues .standard).toOption.map List.length = some 0 := by decide +kernel
  obtain ⟨issues, hfound, hlength⟩ := Option.map_eq_some_iff.mp hissues
  rw [Attempt.eq_ok_of_toOption hfound, List.length_eq_zero_iff.mp hlength]

theorem usable : Setup.Usable {} ∅ .standard := ⟨⟨_, rfl⟩, nofun, rfl⟩

theorem not_long_given : ∀ o ∈ Override.ofEntries given, ¬o.template.Long := by
  intro o ho
  rw [show Override.ofEntries given = [⟨none, .text "required", .text "Needed."⟩,
    ⟨none, .text "email", .text "Check it."⟩] from rfl] at ho
  simp only [List.mem_cons, List.not_mem_nil, or_false] at ho
  rcases ho with rfl | rfl <;> exact Value.not_long_text _

/-- An engine is made from the file. A template that is given goes before that of the file, unless
the file has one for the form itself. -/
theorem engine_made :
    (∃ document, file.read .standard = .ok (.ok document)) ∧ (file.check .standard ∅).1 = .ok [] ∧
    ∃ w e m, newEngineFromFile .standard "checks" {} file (.map given) ∅ = (.ok (), w) ∧
      w.engines.get? "checks" = some e ∧ w.composers.get? e.composer = some m ∧
      m.templateFor "required" (.text "guest") = .ok (some "Needed.") ∧
        m.templateFor "email" (.text "guest") = .ok (some "Ask them.") := by
  obtain ⟨document, hread, hrequired, hemail⟩ := read_file
  have hcheck : (file.check .standard ∅).1 = .ok [] :=
    (RuleFile.check_fst .standard file ∅).trans issues_file
  obtain ⟨-, -, -, hengine⟩ := RuleFile.engine_of_file Schema.keywords_check hread ∅
  obtain ⟨_, forms, hdocument, -, hengine⟩ := hengine hcheck
  cases hdocument
  obtain ⟨e, m, hdone, he, hm, -, -, htemplates⟩ :=
    (hengine {} .standard given "checks" (by decide) usable).2 not_long_given
  exact ⟨⟨document, hread⟩, hcheck, _, e, m, Prod.ext hdone rfl, he, hm,
    (htemplates "required" (.text "guest") rfl (by simp)).trans (congrArg _ hrequired),
    (htemplates "email" (.text "guest") rfl (by simp)).trans (congrArg _ hemail)⟩

/-- The file has no issues, but no engine is made from it where a template that is given is a number
of one digit more than can be written. -/
theorem long_template_refused :
    (∃ document, file.read .standard = .ok (.ok document)) ∧ (file.check .standard ∅).1 = .ok [] ∧
    (newEngineFromFile .standard "checks" {} file
      (.map [(.text "required", .int (Nat.pow 10 maxDigits))]) ∅).1 =
      .error .tooManyDigits := by
  obtain ⟨document, hread, -⟩ := read_file
  refine ⟨⟨document, hread⟩, (RuleFile.check_fst .standard file ∅).trans issues_file, ?_⟩
  exact (RuleFile.newEngine_error_iff Schema.keywords_check hread issues_file
    (by decide) usable _ "checks" .tooManyDigits).mpr
    ⟨rfl, ⟨none, .text "required", .int (Nat.pow 10 maxDigits)⟩, List.mem_singleton_self _,
      Value.long_pow⟩

end GuestForm

end FormRules
