import FormRules.Proofs.RuleFile.Checker
import FormRules.Proofs.Yaml.Trouble

/-!
# How a rule file is read

A rule file is checked or loaded in three steps: its bytes are made a value, the keys of the value
are turned to texts, and the departures from the schema are found. The first and the last are done
by tools (`Tools`). Each step may end in issues, and each may stop for a cause that makes no issue.
`RuleFile.Stops` lists these causes; `RuleFile.outcomes` says that with any tools there are no
others.
-/

namespace FormRules

namespace Value

/-- A value stands as a key in another, reached through mappings and lists. -/
inductive KeyIn (k : Value) : Value → Prop where
  | key {es : List (Value × Value)} {v : Value} (h : (k, v) ∈ es) : KeyIn k (.map es)
  | entry {es : List (Value × Value)} {k' v : Value} (h : (k', v) ∈ es) (hk : KeyIn k v) :
    KeyIn k (.map es)
  | item {xs : List Value} {x : Value} (h : x ∈ xs) (hk : KeyIn k x) : KeyIn k (.list xs)

/-- A key stands in the value that has too many digits to become a text. -/
def LongKey (v : Value) : Prop := ∃ k, KeyIn k v ∧ k.Long

theorem longKey_map_iff {es : List (Value × Value)} :
    (map es).LongKey ↔ ∃ e ∈ es, e.1.Long ∨ e.2.LongKey := by
  constructor
  · rintro ⟨k, ⟨h⟩ | ⟨h, hk⟩, hlong⟩
    · exact ⟨_, h, .inl hlong⟩
    · exact ⟨_, h, .inr ⟨k, hk, hlong⟩⟩
  · rintro ⟨⟨k, v⟩, he, hlong | ⟨k', hk, hlong⟩⟩
    · exact ⟨k, .key he, hlong⟩
    · exact ⟨k', .entry he hk, hlong⟩

theorem longKey_list_iff {xs : List Value} : (list xs).LongKey ↔ ∃ x ∈ xs, x.LongKey := by
  constructor
  · rintro ⟨k, hk, hlong⟩
    cases hk with
    | item hx hk => exact ⟨_, hx, k, hk, hlong⟩
  · rintro ⟨x, hx, k, hk, hlong⟩
    exact ⟨k, .item hx hk, hlong⟩

theorem keyText_longIf (k : Value) : LongIf k.Long k.keyText := by
  cases k with
  | bool b => exact .ok _ (not_long (by simp) rfl)
  | _ => exact toText_longIf _

mutual

/-- The keys of a value become texts unless one is too long. -/
theorem textKeys_longIf : (v : Value) → LongIf v.LongKey v.textKeys
  | .map es => (textKeysEntries_longIf es).map.congr longKey_map_iff.symm
  | .list xs => (textKeysItems_longIf xs).map.congr longKey_list_iff.symm
  | .null | .bool _ | .int _ | .float _ | .text _ | .tuple _ | .set _ | .date _ | .moment _
    | .bytes _ =>
    .ok _ nofun

theorem textKeysItems_longIf : (xs : List Value) → LongIf (∃ x ∈ xs, x.LongKey) (textKeysItems xs)
  | [] => .ok [] (by simp)
  | x :: xs => ((textKeys_longIf x).bind fun _ => (textKeysItems_longIf xs).map).congr (by simp)

theorem textKeysEntries_longIf : (es : List (Value × Value)) →
    LongIf (∃ e ∈ es, e.1.Long ∨ e.2.LongKey) (textKeysEntries es)
  | [] => .ok [] (by simp)
  | (k, v) :: es =>
    ((keyText_longIf k).bind fun _ => (textKeys_longIf v).bind fun _ =>
      (textKeysEntries_longIf es).map).congr (by simp [or_assoc])

end

end Value

namespace Finding

theorem stepText_longIf (step : Value) : LongIf step.Long (stepText step) := by
  cases step with
  | int i => exact (intText_longIf i).map.congr Value.long_int_iff.symm
  | bool b => exact (Value.toText_longIf (.bool b)).map
  | _ => exact Value.toText_longIf _

/-- A finding becomes an issue unless a step that leads to it is too long a number. -/
theorem toIssue_longIf (file : String) (f : Finding) :
    LongIf (∃ step ∈ f.path, step.Long) (f.toIssue file) :=
  have hpath : LongIf (∃ step ∈ f.path, step.Long) (pathText f.path) :=
    (LongIf.mapM fun step _ => stepText_longIf step).map
  hpath.map

end Finding

/-- There are no issues to be had if the checker fails, or if it finds something at a place that
cannot be written. -/
theorem Schema.issues_error_iff (s : Schema) (check : Checker) (file : String) (v : Value)
    (fault : Fault) : s.issues check file v = .error fault ↔ check s [] v = .error fault ∨
      ∃ found, check s [] v = .ok found ∧ fault = .tooManyDigits ∧
        ∃ f ∈ found, ∃ step ∈ f.path, step.Long := by
  unfold Schema.issues
  rcases check s [] v with cause | found
  · simp [bind, Except.bind]
  · have hissues : LongIf (∃ f ∈ found, ∃ step ∈ f.path, step.Long)
        (found.mapM (Finding.toIssue file)) := LongIf.mapM fun f _ => f.toIssue_longIf file
    exact (hissues.map fault).trans (by simp)

namespace RuleFile

/-- What comes of the bytes of the file, if there is one that can be opened. -/
def loaded? (tools : Tools) (f : RuleFile) : Option Loaded :=
  if f.hasNul then none else f.content.map tools.load

/-- Why the file is neither read nor reported. -/
inductive Stops (tools : Tools) (f : RuleFile) : Fault → Prop where
  /-- there can be no file of its name -/
  | path (h : f.hasNul = true) : Stops tools f .nulInPath
  /-- its bytes are not read to the end, for a cause that is not told as an error of the notation -/
  | stopped {fault : Fault} (h : f.loaded? tools = some (.stopped fault)) : Stops tools f fault
  /-- its document has no end, or is too deep -/
  | bottomless (h : f.loaded? tools = some (.bottomless false)) : Stops tools f .tooDeep
  /-- a key is too long a number in a document that has no end, or is too deep -/
  | early (h : f.loaded? tools = some (.bottomless true)) : Stops tools f .tooManyDigits
  /-- a key in it is too long a number -/
  | key {document : Value} (hdocument : f.loaded? tools = some (.document document))
      (h : document.LongKey) : Stops tools f .tooManyDigits
  /-- the checker does not come to an end -/
  | check {document : Value} (hdocument : f.loaded? tools = some (.document document))
      (hnull : document ≠ .null) {keyed : Value} (hkeyed : document.textKeys = .ok keyed)
      {fault : Fault} (h : tools.check RuleDocument.schema [] keyed = .error fault) :
      Stops tools f fault
  /-- what the checker finds is at a place that has too long a number -/
  | place {document : Value} (hdocument : f.loaded? tools = some (.document document))
      (hnull : document ≠ .null) {keyed : Value} (hkeyed : document.textKeys = .ok keyed)
      {found : List Finding} (hfound : tools.check RuleDocument.schema [] keyed = .ok found)
      (h : ∃ finding ∈ found, ∃ step ∈ finding.path, step.Long) : Stops tools f .tooManyDigits

variable {tools : Tools} {f : RuleFile}

/-- Besides the faults of the tools there are three. -/
theorem Stops.kind {kinds : List Fault}
    (hload : ∀ bytes fault, tools.load bytes = .stopped fault → fault ∈ kinds)
    (hcheck : ∀ s path v fault, tools.check s path v = .error fault → fault ∈ kinds)
    {fault : Fault} (h : f.Stops tools fault) :
    fault ∈ .nulInPath :: .tooDeep :: .tooManyDigits :: kinds := by
  cases h with
  | path | bottomless | early | key | place => simp
  | stopped h =>
    unfold loaded? at h
    split at h
    · cases h
    · obtain ⟨bytes, -, hstopped⟩ := Option.map_eq_some_iff.mp h
      simp [hload bytes fault hstopped]
  | check _ _ _ h => simp [hcheck _ _ _ fault h]

/-! ## The result of reading -/

theorem read_of_path (h : f.hasNul = true) : f.read tools = .error .nulInPath := by
  simp [read, h]

/-- What reading makes of what comes of the bytes. -/
theorem read_of_loaded {loaded : Loaded} (h : f.loaded? tools = some loaded) :
    f.read tools = f.readLoaded loaded := by
  unfold loaded? at h
  split at h
  · cases h
  · next hnul =>
    obtain ⟨bytes, hbytes, rfl⟩ := Option.map_eq_some_iff.mp h
    simp [read, hnul, hbytes]

theorem read_of_document {document : Value} (h : f.loaded? tools = some (.document document))
    (hnull : document ≠ .null) : f.read tools = (do return .ok (← document.textKeys)) := by
  rw [read_of_loaded h]
  cases document with
  | null => exact absurd rfl hnull
  | _ => rfl

/-- A file that cannot be opened is reported, or there can be none of its name. -/
theorem read_of_none (h : f.loaded? tools = none) :
    f.hasNul = true ∨ f.read tools = .ok (.error (f.issue "Cannot read file")) := by
  unfold loaded? at h
  split at h
  · next hnul => exact .inl hnul
  · next hnul =>
    rw [Option.map_eq_none_iff] at h
    exact .inr (by simp [read, hnul, h])

/-- A document that is read is one that was loaded, with its keys as texts. -/
theorem read_eq_ok_iff {keyed : Value} : f.read tools = .ok (.ok keyed) ↔
    ∃ document, f.loaded? tools = some (.document document) ∧ document ≠ .null ∧
      document.textKeys = .ok keyed := by
  constructor
  · intro h
    cases hloaded : f.loaded? tools with
    | none =>
      obtain hnul | hread := read_of_none hloaded
      · cases (read_of_path hnul).symm.trans h
      · cases hread.symm.trans h
    | some loaded =>
      rw [read_of_loaded hloaded] at h
      cases loaded with
      | malformed | stopped | bottomless => cases h
      | document v =>
        by_cases hnull : v = .null
        · rw [hnull] at h
          cases h
        · rw [← read_of_loaded hloaded, read_of_document hloaded hnull] at h
          obtain ⟨keyed', hkeyed, h⟩ := Run.eq_ok_of_bind h
          cases h
          exact ⟨v, rfl, hnull, hkeyed⟩
  · rintro ⟨document, hdocument, hnull, hkeyed⟩
    rw [read_of_document hdocument hnull, hkeyed]
    rfl

/-- The issues of the file, as they are found. -/
def issues (tools : Tools) (f : RuleFile) : Attempt (List Issue) := do
  match ← f.read tools with
  | .error issue => return [issue]
  | .ok document => RuleDocument.issues tools.check document f.name

theorem issues_of_keyed {document keyed : Value} (h : f.loaded? tools = some (.document document))
    (hnull : document ≠ .null) (hkeyed : document.textKeys = .ok keyed) :
    f.issues tools = RuleDocument.issues tools.check keyed f.name := by
  rw [issues, read_of_document h hnull, hkeyed]
  rfl

/-- Each of the causes is one. -/
theorem issues_of_stops {fault : Fault} (h : f.Stops tools fault) :
    f.issues tools = .error fault := by
  have hread (hread : f.read tools = .error fault) : f.issues tools = .error fault := by
    rw [issues, hread]
    rfl
  cases h with
  | path h => exact hread (read_of_path h)
  | stopped h | bottomless h | early h => exact hread (read_of_loaded h)
  | @key document hdocument h =>
    refine hread ?_
    -- an empty file has no keys
    have hnull : document ≠ .null := by
      rintro rfl
      obtain ⟨k, hk, -⟩ := h
      cases hk
    rw [read_of_document hdocument hnull, (document.textKeys_longIf .tooManyDigits).mpr ⟨rfl, h⟩]
    rfl
  | check hdocument hnull hkeyed h =>
    rw [issues_of_keyed hdocument hnull hkeyed]
    exact (Schema.issues_error_iff _ _ _ _ _).mpr (.inl h)
  | place hdocument hnull hkeyed hfound h =>
    rw [issues_of_keyed hdocument hnull hkeyed]
    exact (Schema.issues_error_iff _ _ _ _ _).mpr (.inr ⟨_, hfound, rfl, h⟩)

/-- A document is the cause by its keys or by what is found in it. -/
theorem stops_of_document {document : Value}
    (hdocument : f.loaded? tools = some (.document document))
    (hnull : document ≠ .null) {fault : Fault} (h : f.issues tools = .error fault) :
    f.Stops tools fault := by
  cases hkeyed : document.textKeys with
  | error cause =>
    obtain ⟨rfl, hlong⟩ := (document.textKeys_longIf cause).mp hkeyed
    rw [issues, read_of_document hdocument hnull, hkeyed] at h
    cases h
    exact .key hdocument hlong
  | ok keyed =>
    rw [issues_of_keyed hdocument hnull hkeyed] at h
    obtain hcheck | ⟨found, hfound, rfl, hplace⟩ := (Schema.issues_error_iff _ _ _ _ _).mp h
    · exact .check hdocument hnull hkeyed hcheck
    · exact .place hdocument hnull hkeyed hfound hplace

/-- There are no other causes. -/
theorem stops_of_issues {fault : Fault} (h : f.issues tools = .error fault) :
    f.Stops tools fault := by
  cases hloaded : f.loaded? tools with
  | none =>
    obtain hnul | hread := read_of_none hloaded
    · rw [issues, read_of_path hnul] at h
      cases h
      exact .path hnul
    · rw [issues, hread] at h
      cases h
  | some loaded =>
    have hread := read_of_loaded hloaded
    cases loaded with
    | malformed =>
      rw [issues, hread] at h
      cases h
    | stopped cause =>
      rw [issues, hread] at h
      cases h
      exact .stopped hloaded
    | bottomless longKey =>
      rw [issues, hread] at h
      cases h
      cases longKey with
      | false => exact .bottomless hloaded
      | true => exact .early hloaded
    | document v =>
      by_cases hnull : v = .null
      · rw [hnull] at hread
        rw [issues, hread] at h
        cases h
      · exact stops_of_document hloaded hnull h

theorem issues_error_iff (tools : Tools) (f : RuleFile) (fault : Fault) :
    f.issues tools = .error fault ↔ f.Stops tools fault :=
  ⟨stops_of_issues, issues_of_stops⟩

/-! ## Checking and loading -/

variable (tools) (f) (w : World)

theorem check_fst : (f.check tools w).1 = f.issues tools := by
  unfold check issues
  rw [Run.bind_apply]
  have hlift : (liftM (f.read tools) : Run (Except Issue Value)) w = (f.read tools, w) := rfl
  rw [hlift]
  rcases f.read tools with fault | issue | document
  · rfl
  · rfl
  · dsimp only
    rw [Run.bind_apply]
    have hlift : (liftM (RuleDocument.issues tools.check document f.name) : Run (List Issue)) w =
        (RuleDocument.issues tools.check document f.name, w) := rfl
    rw [hlift]
    change _ = RuleDocument.issues tools.check document f.name
    rcases RuleDocument.issues tools.check document f.name with fault | _ | ⟨issue, issues⟩ <;> rfl

/-- A file without issues has declarations. -/
theorem declarations_eq : ∃ d, f.declarations tools = (do
    match ← f.issues tools with
    | [] => return .ok d
    | issues => return .error issues) := by
  unfold declarations issues
  rcases f.read tools with fault | issue | document
  · exact ⟨.ofValue "" .null, rfl⟩
  · exact ⟨.ofValue "" .null, rfl⟩
  · refine ⟨.ofValue f.name document, ?_⟩
    change (RuleDocument.issues tools.check document f.name >>= _) =
      RuleDocument.issues tools.check document f.name >>= _
    rcases RuleDocument.issues tools.check document f.name with fault | _ | ⟨issue, issues⟩ <;> rfl

theorem load_fst : ∃ d, (f.load tools w).1 = (do
    match ← f.issues tools with
    | [] => return d
    | issues => .error (.invalidRuleFile issues)) := by
  obtain ⟨d, hd⟩ := f.declarations_eq tools
  refine ⟨d, ?_⟩
  unfold load
  rw [Run.bind_apply]
  have hlift : (liftM (f.declarations tools) : Run _) w = (f.declarations tools, w) := rfl
  rw [hlift, hd]
  rcases f.issues tools with fault | _ | ⟨issue, issues⟩ <;> rfl

/-- **A rule file is checked and loaded with two outcomes, but for the causes listed.** With
whatever tools, checking it gives its issues and loading it gives its declarations or fails with its
issues, or there is one of these causes; and besides the faults of the tools they make three faults
only. -/
theorem outcomes :
    (∀ fault, (f.check tools w).1 = .error fault ↔ f.Stops tools fault) ∧
      (∀ fault, (f.load tools w).1 = .error fault ↔ f.Stops tools fault ∨
        ∃ issues ≠ [], (f.check tools w).1 = .ok issues ∧ fault = .invalidRuleFile issues) ∧
      ∀ kinds : List Fault, (∀ bytes fault, tools.load bytes = .stopped fault → fault ∈ kinds) →
        (∀ s path v fault, tools.check s path v = .error fault → fault ∈ kinds) →
          ∀ fault, f.Stops tools fault →
            fault ∈ .nulInPath :: .tooDeep :: .tooManyDigits :: kinds := by
  refine ⟨fun fault => ?_, fun fault => ?_, fun kinds hload hcheck fault h => h.kind hload hcheck⟩
  · rw [check_fst, issues_error_iff]
  · obtain ⟨d, hd⟩ := f.load_fst tools w
    rw [hd, check_fst, ← issues_error_iff]
    rcases f.issues tools with fault' | _ | ⟨issue, issues⟩
    · simp [Bind.bind, Except.bind]
    · simp [Bind.bind, Except.bind, Pure.pure, Except.pure]
    · simp [Bind.bind, Except.bind, eq_comm]

end RuleFile

/-- The faults for which bytes have no document. -/
theorem Yaml.kind_of_load {bytes : List Nat} {fault : Fault} (h : load bytes = .stopped fault) :
    fault ∈ .notUtf8 :: Yaml.faultKinds := by
  unfold Yaml.load at h
  split at h
  · cases h
    exact List.mem_cons_self
  · split at h
    · cases h
    · cases h
    · next cause hdocument =>
      cases h
      exact List.mem_cons_of_mem _ (Yaml.caused_of_document hdocument).kind
    · cases h

namespace OneByte

/-- A file with the byte 255, which no text has in UTF-8. -/
def file : RuleFile := ⟨"rules.yaml", some [0x66, 0x6f, 0x72, 0x6d, 0x73, 0x3a, 0x20, 0xff, 0x0a]⟩

/-- Neither outcome: the file is not read, and there is no issue that says so. -/
theorem undecodable_escapes :
    ¬((∃ issues, (file.check .standard ∅).1 = .ok issues) ∧
      ((∃ d, (file.load .standard ∅).1 = .ok d) ∨
        ∃ issues, (file.load .standard ∅).1 = .error (.invalidRuleFile issues))) ∧
      (file.check .standard ∅).1 = .error .notUtf8 ∧
      (file.load .standard ∅).1 = .error .notUtf8 := by
  have hcheck : (file.check .standard ∅).1 = .error .notUtf8 := rfl
  refine ⟨?_, hcheck, rfl⟩
  rintro ⟨⟨issues, h⟩, -⟩
  rw [hcheck] at h
  cases h

/-- With the standard tools this file has one of the causes, and no other fault is met than those
that are known of its text and of its findings. -/
theorem undecodable_stops : file.Stops .standard .notUtf8 ∧
    ∀ fault, file.Stops .standard fault → fault ∈ .nulInPath :: .tooDeep :: .tooManyDigits ::
      (.tooManyDigits :: .notUtf8 :: Yaml.faultKinds) := by
  obtain ⟨hcheck, -, hkinds⟩ := RuleFile.outcomes .standard file ∅
  refine ⟨(hcheck .notUtf8).mp rfl, hkinds _ (fun bytes fault h => ?_) fun s path v fault h => ?_⟩
  · exact List.mem_cons_of_mem _ (Yaml.kind_of_load h)
  · rw [(s.long_of_check h).1]
    exact List.mem_cons_self

end OneByte

end FormRules
