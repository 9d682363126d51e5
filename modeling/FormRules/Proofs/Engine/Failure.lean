import FormRules.Proofs.RuleFile.Engine
import FormRules.Session.Perform

/-!
# Set-ups that fail

A set-up looks up, reads and normalizes everything before it changes anything, and the overrides of
a shared composer come last. So if they can be applied, a set-up that fails has changed nothing,
whatever it failed at (`Run.newEngine_failed`); if it read a rule file, the journal may say so
(`Run.newEngineFromFile_failed`). Declarations that cannot be used leave the engine as it was, and a
session goes on as if they had not been made (`Session.run_failed_declare`).
-/

namespace FormRules

open Run (bind_of_ok bind_of_error)

/-- There are no messages, or they are a mapping in which every template has a text. -/
def Override.Applicable (messages : Value) : Prop :=
  messages = .null ∨
    ∃ es, messages = .map es ∧ ∀ o ∈ Override.ofEntries es, ∃ text, o.template.toText = .ok text

/-- Every composer takes such messages. -/
theorem Composer.addGiven_of_applicable (c : Composer) {messages : Value}
    (h : Override.Applicable messages) : (c.addGiven messages).2 = .ok () := by
  obtain rfl | ⟨es, rfl, h⟩ := h
  · rfl
  · rw [addGiven_map]
    cases hadded : (c.overrideAll es).2 with
    | ok _ => rfl
    | error fault =>
      obtain ⟨-, o, ho, hlong⟩ := (c.overrideAll_longIf es fault).mp hadded
      obtain ⟨text, htext⟩ := h o ho
      have hfault := (o.template.toText_longIf .tooManyDigits).mpr ⟨rfl, hlong⟩
      cases htext.symm.trans hfault

/-- The messages of a file that is loaded can be applied. -/
theorem RuleFile.applicable_of_load {tools : Tools} (hkeywords : tools.check.Keywords)
    {f : RuleFile} {w : World} {document : RuleDocument}
    (h : (f.load tools w).1 = .ok document) : Override.Applicable document.messagesValue := by
  have hissues : f.issues tools = .ok [] := (load_isOk_iff w).mp ⟨document, h⟩
  obtain ⟨r, hread, -⟩ : ∃ r, f.read tools = .ok r ∧ _ := Run.eq_ok_of_bind hissues
  obtain ⟨v, rfl⟩ := document_of_issues hread hissues
  obtain rfl : document = .ofValue f.name v :=
    Except.ok.inj (h.symm.trans (load_of_issues hread hissues w))
  refine .inr ⟨RuleDocument.section? "messages" v, rfl, fun o ho => ?_⟩
  have htext := RuleDocument.isText_template (shaped_of_issues hkeywords hread hissues) o ho
  cases htemplate : o.template with
  | text s => exact ⟨s, rfl⟩
  | _ =>
    rw [htemplate] at htext
    cases htext

namespace Draft

/-- Overrides that can be applied are taken, unless the composer of the draft is not there; then
nothing happens. -/
theorem override_cases (d : Draft) (w : World) {messages : Value}
    (h : Override.Applicable messages) :
    (∃ d' v c, d.override messages w = (.ok d', v) ∧ d'.composer.content v.composers = some c) ∨
      d.composer.content w.composers = none ∧ ∃ fault,
        d.override messages w = (.error fault, w) := by
  cases hc : d.composer.content w.composers with
  | some c =>
    have hd : d.Has w d.config d.rules c := ⟨rfl, rfl, hc⟩
    obtain ⟨d', v, hoverride, hd'⟩ := hd.override_ok (c.addGiven_of_applicable h)
    exact .inl ⟨d', v, _, hoverride, hd'.composer⟩
  | none =>
    refine .inr ⟨rfl, ?_⟩
    obtain ⟨config, rules, accessor, catalog, composer⟩ := d
    cases composer with
    | fresh c => cases hc
    | shared r =>
      have hr : w.composers.get? r = none := hc
      refine ⟨.unknownName r.name, ?_⟩
      unfold override
      exact bind_of_error (by rw [Run.composer_apply, hr]; rfl)

end Draft

namespace Run

variable {name : String} {s : Setup} {w w' : World} {messages : Value} {fault : Fault}

/-- The end of a set-up. -/
theorem override_placed_failed (d : Draft) (hmessages : Override.Applicable messages)
    (h : (d.override messages >>= fun d => modify (d.placed name)) w = (.error fault, w')) :
    w' = w := by
  obtain ⟨d', v, c, hoverride, -⟩ | ⟨-, cause, hoverride⟩ := d.override_cases w hmessages
  · rw [bind_of_ok hoverride] at h
    cases h
  · rw [bind_of_error hoverride] at h
    exact (Prod.mk.inj h).2.symm

/-- **An engine that cannot be made leaves nothing behind.** -/
theorem newEngine_failed {rules : Value} (hmessages : Override.Applicable messages)
    (h : newEngine name s rules messages w = (.error fault, w')) : w' = w := by
  unfold newEngine at h
  rcases hparts : s.parts w with ⟨cause | p, v⟩
  · rw [bind_of_error hparts] at h
    obtain rfl := reads_parts s |>.eq hparts
    exact (Prod.mk.inj h).2.symm
  · rw [bind_of_ok hparts] at h
    obtain rfl := reads_parts s |>.eq hparts
    rcases hdraft : p.draft rules with cause | d
    · rw [hdraft] at h
      exact (Prod.mk.inj h).2.symm
    · rw [hdraft] at h
      exact override_placed_failed d hmessages h

/-- Two overrides at the end of a set-up: where the composer is there for the first it is there for
the second. -/
theorem overrides_placed_failed (d : Draft) {first : Value} (hfirst : Override.Applicable first)
    (hmessages : Override.Applicable messages)
    (h : (d.override first >>= fun d => d.override messages >>= fun d => modify (d.placed name)) w =
      (.error fault, w')) : w' = w := by
  obtain ⟨d', v, c, hoverride, hc⟩ | ⟨-, cause, hoverride⟩ := d.override_cases w hfirst
  · rw [bind_of_ok hoverride] at h
    obtain ⟨d'', v', -, hoverride', -⟩ | ⟨hnone, -⟩ := d'.override_cases v hmessages
    · rw [bind_of_ok hoverride'] at h
      cases h
    · cases hc.symm.trans hnone
  · rw [bind_of_error hoverride] at h
    exact (Prod.mk.inj h).2.symm

/-- Loading a file changes the journal at most. -/
theorem load_snd (tools : Tools) (f : RuleFile) (w : World) :
    ∃ records, (f.load tools w).2 = { w with journal := w.journal ++ records } := by
  unfold RuleFile.load
  rcases f.declarations tools with cause | issues | document
  · exact ⟨[], by simp [bind_apply]⟩
  · exact ⟨[], by simp [bind_apply]⟩
  · exact ⟨_, rfl⟩

/-- **An engine that cannot be made from a file leaves nothing behind** but what the journal says
about the file. -/
theorem newEngineFromFile_failed {tools : Tools} (hkeywords : tools.check.Keywords)
    {file : RuleFile} (hmessages : Override.Applicable messages)
    (h : newEngineFromFile tools name s file messages w = (.error fault, w')) :
    ∃ records, w' = { w with journal := w.journal ++ records } := by
  unfold newEngineFromFile at h
  rcases hparts : s.parts w with ⟨cause | p, v⟩
  · rw [bind_of_error hparts] at h
    obtain rfl := reads_parts s |>.eq hparts
    exact ⟨[], by rw [← (Prod.mk.inj h).2, List.append_nil]⟩
  · rw [bind_of_ok hparts] at h
    obtain rfl := reads_parts s |>.eq hparts
    obtain ⟨records, hjournal⟩ := load_snd tools file v
    rcases hload : file.load tools v with ⟨cause | document, u⟩
    · rw [bind_of_error hload] at h
      rw [hload] at hjournal
      exact ⟨records, by rw [← (Prod.mk.inj h).2, ← hjournal]⟩
    · rw [bind_of_ok hload] at h
      have hfile := RuleFile.applicable_of_load (w := v) hkeywords (congrArg Prod.fst hload)
      rw [hload] at hjournal
      suffices hsame : w' = u from ⟨records, hsame.trans hjournal⟩
      rcases hdraft : p.draft document.formsValue with cause | d
      · rw [hdraft] at h
        exact (Prod.mk.inj h).2.symm
      · rw [hdraft] at h
        exact overrides_placed_failed d hfile hmessages h

/-- Declarations that cannot be used are not made. -/
theorem declare_failed {rules : Value} (h : declare name rules w = (.error fault, w')) :
    w' = w := by
  rw [declare_apply] at h
  split at h
  · exact (Prod.mk.inj h).2.symm
  · split at h
    · exact (Prod.mk.inj h).2.symm
    · cases h

/-- Whether declarations can be used is up to the configuration of the engine. -/
theorem declare_fst (name : String) (rules : Value) (w : World) : (declare name rules w).1 =
    known name (w.engines.get? name) >>= fun e => e.config.normalize rules >>= fun _ =>
      pure () := by
  rw [declare_apply]
  rcases w.engines.get? name with _ | e
  · rfl
  · change _ = e.config.normalize rules >>= _
    rcases hrules : e.config.normalize rules with cause | normalized
    · simp only [hrules]
      rfl
    · simp only [hrules]
      rfl

end Run

namespace Session

/-- A session does not look at the journal and the notes that it finds. -/
theorem run_cleared (steps : List Step) (w : World) :
    (run steps w.cleared).1 = (run steps w).1 := by
  cases steps with
  | nil => rfl
  | cons s steps => rfl

/-- **A session goes on as if declarations that failed had not been made.** -/
theorem run_failed_declare {name : String} {rules : Value} {w w' : World} {fault : Fault}
    (h : Run.declare name rules w = (.error fault, w')) (steps : List Step) :
    (run (.engine name (.declare rules) :: steps) w).1 =
      ⟨.error fault, none, [], []⟩ :: (run steps w).1 := by
  have hstep : step (.engine name (.declare rules)) w =
      (⟨.error fault, none, [], []⟩, w.cleared) := by
    have hfault : (Run.declare name rules w.cleared).1 = .error fault := by
      rw [Run.declare_fst]
      exact (Run.declare_fst name rules w).symm.trans (congrArg Prod.fst h)
    have hsame := Run.declare_failed (Prod.ext hfault rfl)
    have hperform : (Step.engine name (.declare rules)).perform w.cleared =
        (.error fault, w.cleared) :=
      bind_of_error (Prod.ext hfault hsame)
    rw [step, hperform]
    rfl
  rw [run, hstep, ← run_cleared]

end Session

namespace Run

/-- **A set-up that fails leaves everything as it was.** If messages are given whose templates all
have a text, then what an engine that cannot be made was to share is as before, on both ways of
making one (from a file with whatever tools whose checker follows the keywords); and an engine that
refuses declarations is as before, and so is all that is done with it later. -/
theorem failed_setup_changes_nothing (name : String) (s : Setup) (w w' : World) (fault : Fault) :
    (∀ rules messages, Override.Applicable messages →
      newEngine name s rules messages w = (.error fault, w') → w' = w) ∧
    (∀ tools : Tools, tools.check.Keywords → ∀ file messages, Override.Applicable messages →
      newEngineFromFile tools name s file messages w = (.error fault, w') →
        ∃ records, w' = { w with journal := w.journal ++ records }) ∧
    (∀ rules, declare name rules w = (.error fault, w') → w' = w ∧
      ∀ steps, (Session.run (.engine name (.declare rules) :: steps) w).1 =
        ⟨.error fault, none, [], []⟩ :: (Session.run steps w).1) :=
  ⟨fun _ _ hmessages h => newEngine_failed hmessages h,
    fun _ hkeywords _ _ hmessages h => newEngineFromFile_failed hkeywords hmessages h,
    fun _ h => ⟨declare_failed h, fun steps => Session.run_failed_declare h steps⟩⟩

end Run

namespace SharedParts

def composer : Composer :=
  ⟨⟨[(.text "required", "Needed.")]⟩, ⟨[(.text "signup", ⟨[(.text "email", "Ask them.")]⟩)]⟩⟩

def report : Report := ⟨.text "signup", ⟨[(.text "mail", ["Needed."])]⟩⟩

/-- An engine that has completed a run. -/
def engine : Engine where
  config := {}
  rules := ⟨[(.text "signup", ⟨[(.text "mail", ["required"])]⟩)]⟩
  accessor := ⟨"values", 0⟩
  catalog := ⟨"checks", 0⟩
  composer := ⟨"messages", 0⟩
  lastReport := some report

def world : World where
  accessors := Shelf.add ∅ "values" (.computed fun _ _ => .ok (.text ""))
  catalogs := Shelf.add ∅ "checks" .builtins
  composers := Shelf.add ∅ "messages" composer
  engines := Table.set ∅ "e" engine
  journal := []
  notes := []

/-- A rule cannot be cut at an empty delimiter. -/
def setup : Setup where
  config := { ruleDelimiter := "" }
  values := .named "values"
  catalog := some "checks"
  composer := some "messages"

/-- Templates for all forms and for one, of which one is a number. -/
def messages : Value :=
  .map [(.text "required", .text "Missing."), (.text "signup", .map [(.text "email", .int 5)])]

theorem applicable : Override.Applicable messages := by
  refine .inr ⟨_, rfl, fun o ho => ?_⟩
  have hos : o ∈ ([⟨none, .text "required", .text "Missing."⟩,
    ⟨some (.text "signup"), .text "email", .int 5⟩] : List Override) := ho
  rw [List.mem_pair] at hos
  obtain rfl | rfl := hos
  · exact ⟨"Missing.", rfl⟩
  · exact ⟨"5", by decide +kernel⟩

def declarations : Value := .map [(.text "signup", .map [(.text "mail", .text "required")])]

def file : RuleFile :=
  let lines := ["forms:", "  signup:", "    mail: required", "messages:", "  email: Check it."]
  ⟨"rules.yaml", some (("\n".intercalate lines).toUTF8.toList.map UInt8.toNat)⟩

/-- Neither from declarations nor from a file is an engine made, and another engine refuses fields
that are no mapping; the templates that all of them share are as before, and the report is still
there. -/
theorem nothing_changed :
    Run.newEngine "new" setup declarations messages world = (.error .emptyDelimiter, world) ∧
    (∃ v, Run.newEngineFromFile .standard "new" setup file messages world =
      (.error .emptyDelimiter, v) ∧
      v.composers = world.composers ∧ v.catalogs = world.catalogs) ∧
    Run.declare "e" (.map [(.text "signup", .int 5)]) world =
      (.error (.fieldsShape "signup"), world) ∧
    (Session.run [.engine "e" (.declare (.map [(.text "signup", .int 5)])),
      .engine "e" .lastReport] world).1 =
      [⟨.error (.fieldsShape "signup"), none, [], []⟩,
        ⟨.ok (.report (some report)), none, [], []⟩] := by
  have hnew : (Run.newEngine "new" setup declarations messages world).1 = .error .emptyDelimiter :=
    rfl
  have hfile : (Run.newEngineFromFile .standard "new" setup file messages world).1 =
      .error .emptyDelimiter := by
    decide +kernel
  have hdeclare : (Run.declare "e" (.map [(.text "signup", .int 5)]) world).1 =
      .error (.fieldsShape "signup") := rfl
  obtain ⟨hsame, -, -⟩ := Run.failed_setup_changes_nothing "new" setup world _ .emptyDelimiter
  obtain ⟨-, hjournal, -⟩ := Run.failed_setup_changes_nothing "new" setup world _ .emptyDelimiter
  obtain ⟨-, -, hdeclared⟩ :=
    Run.failed_setup_changes_nothing "e" setup world _ (.fieldsShape "signup")
  obtain ⟨records, hworld⟩ :=
    hjournal .standard Schema.keywords_check file messages applicable (Prod.ext hfile rfl)
  obtain ⟨hkept, hsession⟩ := hdeclared _ (Prod.ext hdeclare rfl)
  refine ⟨Prod.ext hnew (hsame _ _ applicable (Prod.ext hnew rfl)), ⟨_, Prod.ext hfile rfl, ?_, ?_⟩,
    Prod.ext hdeclare hkept, (hsession _).trans rfl⟩
  · rw [hworld]
  · rw [hworld]

end SharedParts

end FormRules
