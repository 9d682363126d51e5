import FormRules.Proofs.Message.Fallback
import FormRules.Proofs.Predicate.Tokens
import FormRules.Proofs.Rule.Notation
import FormRules.Proofs.Text.Trim

/-!
# A rule with a list, and with a parameter for each token

The tokens of a range, and options, may be written as one list (`between:1,10`) or as a parameter
each (`between:1:10`). The two texts differ as rules, but what they come to is the same
(`Run.listed_as_separate`): the predicate makes the same of every value and reports the same, and if
the rule fails, the message is the same where the template spreads a list.

What is written after a text is read after what the text holds itself (`Config.parse_append`), so
the two texts are read alike up to the tokens, also where the name of the predicate holds the
delimiter of parameters. Then the name is cut, and hardly ever does another predicate have the name
that is left (`Config.called_cases`). If it is `betweenLength` that is cut, before its `L`, there is
a predicate `between`, and it has more to take than the tokens. It passes and fails alike of both
texts, but does not report the same.
-/

namespace FormRules

open Text

/-! ## The two texts -/

namespace Config

/-- The text of a rule with all tokens in one list. -/
def listed (c : Config) (name : String) (tokens : List String) : String :=
  Rule.render c ⟨name, [.several tokens]⟩

/-- The text of a rule where each token is a parameter. -/
def separate (c : Config) (name : String) (tokens : List String) : String :=
  Rule.render c ⟨name, tokens.map .single⟩

/-- What a rule text prepares are parameters. -/
theorem isParameter_of_prepare {c : Config} (hc : c.Cuts) {text : String} {prepared : PreparedRule}
    (h : c.prepare text = .ok prepared) : ∀ q ∈ prepared.parameters, q.IsParameter := by
  obtain ⟨prepared', h', hparameters⟩ := prepare_eq_ok hc text
  obtain rfl := Except.ok.inj (h.symm.trans h')
  exact hparameters

variable {c : Config} {p l : Char} (hp : c.parameterDelimiter = .singleton p)
  (hl : c.listDelimiter = .singleton l)

include hp hl

theorem cuts_of_singleton : c.Cuts := by
  refine ⟨?_, ?_⟩
  · rw [hp]
    simp
  · rw [hl]
    simp

variable (hpl : p ≠ l)

include hpl

/-- Parameters that are written after a text are read after those of the text. -/
theorem parse_append {name : String} {r : Rule} (h : c.parse name = .ok r) {qs : List Parameter}
    (hqs : ∀ q ∈ qs, q.Clean p l) :
    c.parse (Rule.render c ⟨name, qs⟩) = .ok ⟨r.method, r.parameters ++ qs⟩ := by
  have hr := clean_parse hp hl h
  have htext : Rule.render c ⟨name, qs⟩ = Rule.render c ⟨r.method, r.parameters ++ qs⟩ := by
    rw [← render_parse h]
    simp only [Rule.render, List.map_append]
    exact joinTexts_joinTexts _ _ _ _
  rw [htext]
  refine parse_render hp hl hpl ⟨hr.method, fun q hq => ?_⟩
  rcases List.mem_append.mp hq with hq | hq
  · exact hr.parameters q hq
  · exact hqs q hq

/-- Parameters that are written behind a rule come behind its own. -/
theorem prepare_append {name : String} {own : PreparedRule} (h : c.prepare name = .ok own)
    {qs : List Parameter} (hqs : ∀ q ∈ qs, q.Clean p l) : c.prepare (Rule.render c ⟨name, qs⟩) =
      .ok ⟨own.method, own.parameters ++ qs.map c.coerceParameter⟩ := by
  unfold prepare at h ⊢
  obtain ⟨r, hr, hown⟩ := Run.eq_ok_of_bind h
  obtain rfl := Except.ok.inj hown
  rw [parse_append hp hl hpl hr hqs, List.map_append.symm]
  rfl

variable {name : String} {own : PreparedRule} (hown : c.prepare name = .ok own)
    {tokens : List String}
  (hlength : 2 ≤ tokens.length) (htokens : ∀ t ∈ tokens, p ∉ t.toList ∧ l ∉ t.toList)

include hown htokens

/-- Tokens that are written apart come as parameters of their own. -/
theorem prepare_separate : c.prepare (c.separate name tokens) =
    .ok ⟨own.method, own.parameters ++ tokens.map c.coerceText⟩ := by
  have hclean : ∀ q ∈ tokens.map Parameter.single, q.Clean p l := List.forall_mem_map.mpr htokens
  have hread := prepare_append hp hl hpl hown hclean
  rw [List.map_map] at hread
  exact hread

include hlength

/-- Tokens that are written as a list come as one parameter. -/
theorem prepare_listed : c.prepare (c.listed name tokens) =
    .ok ⟨own.method, own.parameters ++ [.list (tokens.map c.coerceText)]⟩ :=
  prepare_append hp hl hpl hown (List.forall_mem_singleton.mpr ⟨hlength, htokens⟩)

end Config

/-! ## The predicate that is called -/

/-- Apart from the name itself, two built-in predicates have a name that one of these names goes on
from. -/
theorem Catalog.name_of_isPrefix : ∀ d ∈ builtinDefinitions, ∀ name ∈ spreading,
    d.name.toList <+: name.toList → d.name = name ∨
      (d.name = "digitsLength" ∧ name = "digitsLengthBetween") ∨
        (d.name = "between" ∧ name = "betweenLength") := by
  decide +kernel

namespace Config

variable {c : Config} {p : Char} (hp : c.parameterDelimiter = .singleton p)

include hp

/-- A rule with parameters has its method up to the first delimiter. -/
theorem delimited_of_parse {text : String} {r : Rule} (h : c.parse text = .ok r)
    (hr : r.parameters ≠ []) : ∃ rest, text.toList = r.method.toList ++ p :: rest := by
  obtain ⟨q, qs, hqs⟩ := List.exists_cons_of_ne_nil hr
  rw [← render_parse h, Rule.render, hqs, hp, joinTexts, String.toList_ofList, List.map_cons,
    List.map_cons, List.map_cons, join_cons _ _ (List.cons_ne_nil _ _), String.toList_singleton,
    List.append_assoc]
  exact ⟨_, rfl⟩

/-- The predicate that is called by a text that begins with one of the names. It has this name,
unless the name holds the delimiter and is cut; then it is one of two others, if there is any. -/
theorem called_cases {name : String} (hname : name ∈ Catalog.spreading) {own : PreparedRule}
    (hown : c.prepare name = .ok own) {d : Definition}
    (hd : Catalog.builtins.resolve own.method = some d) :
    (own = ⟨name, []⟩ ∧ d.name = name) ∨
      (own.parameters ≠ [] ∧ d.name = "digitsLength") ∨
      (own.parameters ≠ [] ∧ d.name = "between" ∧ name = "betweenLength" ∧ p = 'L') := by
  have hall : (Catalog.spreading.all fun name => name.toList.all fun c => !isBlank c) = true := by
    decide +kernel
  have hblank : ∀ name ∈ Catalog.spreading, ∀ c ∈ name.toList, isBlank c = false := by
    simpa using hall
  unfold prepare at hown
  obtain ⟨r, hr, hown⟩ := Run.eq_ok_of_bind hown
  obtain rfl := Except.ok.inj hown
  obtain ⟨hmem, hmethod⟩ := Catalog.mem_of_resolve_ofList hd
  clear hd
  obtain ⟨method, parameters⟩ := r
  change d.name = strip method at hmethod
  rcases parameters with _ | ⟨q, qs⟩
  · have hname' : method = name := Eq.trans String.ofList_toList.symm (render_parse hr)
    subst hname'
    have hstrip : strip method = method := strip_of_not_blank (hblank method hname)
    rw [hstrip] at hmethod ⊢
    exact .inl ⟨rfl, hmethod⟩
  · obtain ⟨rest, hrest⟩ := delimited_of_parse hp hr (List.cons_ne_nil q qs)
    change name.toList = method.toList ++ p :: rest at hrest
    have hstrip : strip method = method :=
      strip_of_not_blank fun c hc => hblank name hname c (hrest ▸ List.mem_append_left _ hc)
    rw [hstrip] at hmethod ⊢
    have hcut : d.name.toList <+: name.toList := ⟨p :: rest, by rw [hmethod, hrest]⟩
    rcases Catalog.name_of_isPrefix d hmem name hname hcut with hsame | ⟨hlength, -⟩
      | ⟨hbetween, rfl⟩
    · -- the name is longer than what it is cut to
      rw [← hsame, hmethod] at hrest
      exact absurd (congrArg List.length hrest) (by simp)
    · exact .inr (.inl ⟨List.cons_ne_nil _ _, hlength⟩)
    · rw [← hmethod, hbetween] at hrest
      have hlonger : "betweenLength".toList = "between".toList ++ 'L' :: "ength".toList := rfl
      obtain ⟨hp, -⟩ := List.cons.inj (List.append_cancel_left (hlonger.symm.trans hrest))
      exact .inr (.inr ⟨List.cons_ne_nil _ _, hbetween, rfl, hp.symm⟩)

end Config

/-! ## What the messages tell -/

namespace Template

variable {template : String} {parameters : List Value} {field : Value} {fault : Fault}

theorem fill_eq_ok_of_ne {s : Segment} (h : s.Legible) (hs : s ≠ .field) (positions : List String)
    (name : Attempt String) : ∃ piece, fill positions name s = .ok piece := by
  cases s with
  | char c => exact ⟨_, rfl⟩
  | field => exact absurd rfl hs
  | position digits =>
    rw [fill, index_eq_ok h]
    exact ⟨_, rfl⟩

/-- Nothing but the name of the field is in the way of putting legible pieces together. -/
theorem render_error_iff {ss : List Segment} (h : ∀ s ∈ ss, s.Legible) (positions : List String)
    (name : Attempt String) :
    render positions name ss = .error fault ↔ .field ∈ ss ∧ name = .error fault := by
  cases name with
  | ok name => simp [render_eq_ok h]
  | error fault' =>
    induction ss with
    | nil => simp [render]
    | cons s ss ih =>
      have hrest := ih fun s' hs' => h s' (List.mem_cons_of_mem s hs')
      by_cases hs : s = .field
      · rw [hs]
        simp [render, fill, bind, Except.bind]
      · obtain ⟨piece, hpiece⟩ :=
          fill_eq_ok_of_ne (h s List.mem_cons_self) hs positions (.error fault')
        rw [render, hpiece]
        rcases hss : render positions (.error fault') ss with fault'' | text <;>
          rw [hss] at hrest <;>
          simpa [bind, Except.bind, pure, Except.pure, Ne.symm hs] using hrest

/-- The parameters of a rule text are not in the way of a message. -/
theorem compose_error_iff (hparameters : ∀ p ∈ parameters, p.IsParameter) :
    compose template parameters field = .error fault ↔
      (¬Legible template ∧ fault = .tooManyDigits) ∨
        (Legible template ∧ .field ∈ segments template ∧ field.asFieldName = .error fault) := by
  by_cases h : Legible template
  · obtain ⟨texts, htexts⟩ := positions_eq_ok hparameters h
    rw [compose, htexts]
    change render texts field.asFieldName (segments template) = .error fault ↔ _
    simp [render_error_iff h, h]
  · simp [h, compose_eq_error (.inl h), eq_comm]

/-- A list of tokens and the tokens themselves have the same texts in a template that spreads a
list. -/
theorem compose_list (hlater : UsesLater template.toList) {xs : List Value}
    (hxs : ∀ x ∈ xs, x.IsToken)
    (field : Value) : compose template [.list xs] field = compose template xs field := by
  by_cases h : Legible template
  · have hused := indexes_eq_ok h
    have hany := (usesLater_iff (reads_iff.mpr rfl : Reads template.toList (segments template))).mpr
      hlater
    rw [compose, compose, positions_spread hused hany, positions_each hused]
    rintro - ys rfl
    cases hxs _ List.mem_cons_self
  · rw [compose_eq_error (.inl h), compose_eq_error (.inl h)]

end Template

namespace Composer

variable {c : Composer} {method : String} {form field : Value}

/-- Whether a message can be composed does not depend on the parameters. -/
theorem compose_error_congr {ps qs : List Value} (hps : ∀ p ∈ ps, p.IsParameter)
    (hqs : ∀ q ∈ qs, q.IsParameter) (fault : Fault) :
    (c.compose method ps form field).2 = .error fault ↔
      (c.compose method qs form field).2 = .error fault := by
  unfold compose
  rcases c.templateFor method form with fault' | _ | template
  · exact Iff.rfl
  · exact (Template.compose_error_iff hps).trans (Template.compose_error_iff hqs).symm
  · exact (Template.compose_error_iff hps).trans (Template.compose_error_iff hqs).symm

theorem compose_list {template : String}
    (htemplate : c.templateFor method form = .ok (some template))
    (hlater : Template.UsesLater template.toList) {xs : List Value} (hxs : ∀ x ∈ xs, x.IsToken) :
    c.compose method [.list xs] form field = c.compose method xs form field := by
  unfold compose
  rw [htemplate]
  exact congrArg (Prod.mk []) (Template.compose_list hlater hxs field)

/-- The standard templates of ranges tell both ends. -/
theorem usesLater_standard {name : String}
    (hname : name ∈ ["between", "betweenLength", "digitsLengthBetween"]) (form : String) :
    ∃ template, standard.templateFor name (.text form) = .ok (some template) ∧
      Template.UsesLater template.toList := by
  have hlater {template : String} (h : ((Template.segments template).filterMap Segment.number?).any
      (1 ≤ ·) = true) : Template.UsesLater template.toList :=
    (Template.usesLater_iff (Template.reads_iff.mpr rfl)).mp h
  simp only [List.mem_cons, List.not_mem_nil, or_false] at hname
  rcases hname with rfl | rfl | rfl
  · exact ⟨_, rfl, hlater (by decide +kernel)⟩
  · exact ⟨_, rfl, hlater (by decide +kernel)⟩
  · exact ⟨_, rfl, hlater (by decide +kernel)⟩

end Composer

/-! ## What the rules come to -/

namespace Run

/-- What the predicate of a rule makes of a value, before any message is composed. -/
def judge (respond : (q : Request) → Run q.Reply) (e : Engine) (here : Context) (value : Value)
    (text : String) : Run Bool := do
  let (prepared, definition) ← resolve e text
  (definition.call value prepared.parameters (some here)).run respond

/-- The message of a rule that failed. -/
def messageOf (e : Engine) (here : Context) (w : World) (prepared : PreparedRule) :
    Attempt String := do
  let m ← known e.composer.name (w.composers.get? e.composer)
  (m.compose prepared.method prepared.parameters here.form here.field).2

/-- What is in a rule text is not in the way of its message. -/
theorem messageOf_error_congr (e : Engine) (here : Context) (w : World) (method : String)
    {ps qs : List Value} (hps : ∀ p ∈ ps, p.IsParameter) (hqs : ∀ q ∈ qs, q.IsParameter)
    (fault : Fault) : messageOf e here w ⟨method, ps⟩ = .error fault ↔
      messageOf e here w ⟨method, qs⟩ = .error fault := by
  unfold messageOf
  rcases known e.composer.name (w.composers.get? e.composer) with fault' | m
  · exact Iff.rfl
  · exact Composer.compose_error_congr hps hqs fault

theorem messageOf_list {e : Engine} {here : Context} {w : World} {method template : String}
    {m : Composer} (hm : w.composers.get? e.composer = some m)
    (htemplate : m.templateFor method here.form = .ok (some template))
    (hlater : Template.UsesLater template.toList) {xs : List Value} (hxs : ∀ x ∈ xs, x.IsToken) :
    messageOf e here w ⟨method, [.list xs]⟩ = messageOf e here w ⟨method, xs⟩ := by
  unfold messageOf
  rw [hm]
  exact congrArg Prod.snd (Composer.compose_list htemplate hlater hxs)

/-- A rule that fails adds its message, if that can be composed. -/
theorem reject_fst (e : Engine) (here : Context) (text : String) (prepared : PreparedRule)
    (errors : Errors) (w : World) : (reject e here text prepared errors w).1 =
      (messageOf e here w prepared).map (errors.add (errorKey here.field)) := by
  unfold reject messageOf
  rcases hm : known e.composer.name (w.composers.get? e.composer) with fault | m
  · have hcomposer : composer e.composer w = (.error fault, w) := by rw [composer_apply, hm]
    rw [bind_of_error hcomposer]
    rfl
  · have hcomposer : composer e.composer w = (.ok m, w) := by rw [composer_apply, hm]
    rw [bind_of_ok hcomposer]
    change _ = Except.map _ (m.compose prepared.method prepared.parameters here.form here.field).2
    generalize m.compose prepared.method prepared.parameters here.form here.field = composed
    obtain ⟨records, fault | message⟩ := composed <;> rfl

section

variable {e : Engine} {w : World} {text : String} {prepared : PreparedRule}
  (hprepared : e.config.prepare text = .ok prepared) (respond : (q : Request) → Run q.Reply)
  (here : Context) (value : Value)

include hprepared

/-- A rule is judged by the predicate that the catalog has for its method. -/
theorem judge_eq {catalog : Catalog} (hcatalog : w.catalogs.get? e.catalog = some catalog) :
    judge respond e here value text w =
      match catalog.resolve prepared.method with
      | some d => (d.call value prepared.parameters (some here)).run respond w
      | none => (.error (.unknownValidation prepared.method), w) := by
  unfold judge
  rw [bind_apply, resolve_apply hprepared hcatalog]
  unfold Catalog.lookUp
  rcases catalog.resolve prepared.method with _ | d <;> rfl

omit respond here value in
theorem eq_of_resolve {prepared' : PreparedRule} {d : Definition} {u : World}
    (h : resolve e text w = (.ok (prepared', d), u)) : prepared' = prepared := by
  have hfirst := congrArg Prod.fst h
  rw [resolve_fst, hprepared] at hfirst
  obtain ⟨read, hread, hfirst⟩ := eq_ok_of_bind hfirst
  obtain ⟨c, -, hfirst⟩ := eq_ok_of_bind hfirst
  obtain ⟨d', -, hfirst⟩ := eq_ok_of_bind hfirst
  obtain ⟨rfl, -⟩ := Prod.mk.inj (Except.ok.inj hfirst)
  exact (Except.ok.inj hread).symm

/-- A rule comes to what its predicate makes of the value, with the message of the rule if it
fails. -/
theorem rule_fst (hcomposers : (judge respond e here value text w).2.composers = w.composers)
    (errors : Errors) : (rule respond e here value text errors w).1 =
      (judge respond e here value text w).1 >>= fun passes =>
        if passes then .ok errors
        else (messageOf e here w prepared).map (errors.add (errorKey here.field)) := by
  unfold judge at hcomposers ⊢
  unfold rule
  rcases hresolve : resolve e text w with ⟨fault | ⟨prepared', d⟩, u⟩
  · rw [bind_of_error hresolve, bind_of_error hresolve]
    rfl
  · obtain rfl := eq_of_resolve hprepared hresolve
    rw [bind_of_ok hresolve] at hcomposers
    rw [bind_of_ok hresolve, bind_of_ok hresolve]
    dsimp only at hcomposers ⊢
    rcases hcall : (d.call value prepared'.parameters (some here)).run respond u with
      ⟨fault | passes, v⟩
    · rw [bind_of_error hcall]
      rfl
    · rw [bind_of_ok hcall]
      cases passes with
      | true => rfl
      | false =>
        rw [hcall] at hcomposers
        have hmessage : messageOf e here w prepared' = messageOf e here v prepared' := by
          unfold messageOf
          rw [hcomposers]
        rw [hmessage]
        exact reject_fst e here text prepared' errors v

end

section

variable {e : Engine} {p : Char} (hp : e.config.parameterDelimiter = .singleton p) {name : String}
  (hname : name ∈ Catalog.spreading) {own : PreparedRule} (hown : e.config.prepare name = .ok own)
  {d : Definition} (hd : Catalog.builtins.resolve own.method = some d)

include hp hname hown hd

theorem call_asks_nothing {A : Request → Prop} (value : Value) (parameters : List Value)
    (context : Option Context) : (d.call value parameters context).Asks A := by
  have hplain : ∀ d ∈ Catalog.builtinDefinitions, d.name ∈ "digitsLength" :: Catalog.spreading →
      d.takesContext = false := by
    decide +kernel
  obtain ⟨hmem, -⟩ := Catalog.mem_of_resolve_ofList hd
  refine Definition.asks_call
    (Catalog.asks_nothing hmem (hplain d hmem ?_)) value parameters context
  rcases Config.called_cases hp hname hown hd with ⟨-, hsame⟩ | ⟨-, hdigits⟩ | ⟨-, hbetween, -⟩
  · exact List.mem_cons_of_mem _ (hsame ▸ hname)
  · exact hdigits ▸ List.mem_cons_self
  · exact hbetween ▸ by decide

/-- What is called with the list and what is called with the tokens. Either the name is whole, and
the two calls are the same; or it is cut, and neither predicate takes so many parameters; or it is
`betweenLength` that is cut, and neither call has a range. -/
theorem call_cases {xs : List Value} (hxs : ∀ x ∈ xs, x.IsToken) (hlength : 2 ≤ xs.length)
    (hlisted : ∀ q ∈ own.parameters ++ [.list xs], q.IsParameter)
    (hseparate : ∀ q ∈ own.parameters ++ xs, q.IsParameter) (value : Value)
    (context : Option Context) :
    (own = ⟨name, []⟩ ∧ d.call value [.list xs] context = d.call value xs context) ∨
      (d.call value (own.parameters ++ [.list xs]) context = Check.fail .tooManyParameters ∧
        d.call value (own.parameters ++ xs) context = Check.fail .tooManyParameters) ∨
      ((name = "betweenLength" ∧ p = 'L') ∧ ∀ answer,
        ((d.call value (own.parameters ++ [.list xs]) context).outcome answer).1 =
          ((d.call value (own.parameters ++ xs) context).outcome answer).1) := by
  obtain ⟨-, hmethod⟩ := Catalog.mem_of_resolve_ofList hd
  rcases Config.called_cases hp hname hown hd with ⟨howned, -⟩ | ⟨hbefore, hdigits⟩ |
    ⟨hbefore, hbetween, hcut⟩
  · rw [howned] at hd
    exact .inl ⟨howned, Catalog.call_list hname hd hxs value context⟩
  · obtain ⟨description, hresolve⟩ : ∃ description, Catalog.builtins.resolve "digitsLength" =
        some (Catalog.plain "digitsLength" Predicate.digitsLength description) := ⟨_, rfl⟩
    obtain rfl := Option.some.inj (hresolve.symm.trans (hdigits ▸ hmethod ▸ hd))
    have hexcess {ps : List Value} (hps : 1 < ps.length) :
        (Catalog.plain "digitsLength" Predicate.digitsLength description).call value ps context =
          Check.fail .tooManyParameters := by
      rw [Catalog.call_plain, Predicate.digitsLength, Predicate.upToOne_of_lt_length hps]
      rfl
    have hpos := List.length_pos_iff.mpr hbefore
    refine .inr (.inl ⟨hexcess ?_, hexcess ?_⟩)
    · rw [List.length_append, List.length_singleton]
      omega
    · rw [List.length_append]
      omega
  · obtain ⟨description, hresolve⟩ : ∃ description, Catalog.builtins.resolve "between" =
        some (Catalog.plain "between" Predicate.between description) := ⟨_, rfl⟩
    obtain rfl := Option.some.inj (hresolve.symm.trans (hbetween ▸ hmethod ▸ hd))
    have hpos := List.length_pos_iff.mpr hbefore
    have hmember : .list xs ∈ own.parameters ++ [.list xs] :=
      List.mem_append_right own.parameters List.mem_cons_self
    refine .inr (.inr ⟨hcut, fun answer => ?_⟩)
    rw [Catalog.call_plain, Catalog.call_plain,
      Predicate.between_fst_of_unmet hlisted (Predicate.unmet_range_of_list ?_ hmember),
      Predicate.between_fst_of_unmet hseparate (Predicate.unmet_range_of_length ?_)]
    · rw [List.length_append]
      omega
    · rw [List.length_append, List.length_singleton]
      omega

end

section

variable {e : Engine} {p : Char} (hp : e.config.parameterDelimiter = .singleton p) {name : String}
  (hname : name ∈ Catalog.spreading) {own : PreparedRule} (hown : e.config.prepare name = .ok own)
  {w : World} {catalog : Catalog} (hcatalog : w.catalogs.get? e.catalog = some catalog)
  (hbuiltin : catalog.resolve own.method = Catalog.builtins.resolve own.method)
  (respond : (q : Request) → Run q.Reply) (here : Context) (value : Value)

section

variable {text : String} {parameters : List Value}
  (hprepared : e.config.prepare text = .ok ⟨own.method, parameters⟩)

include hcatalog hbuiltin hprepared

theorem judge_of_builtin : judge respond e here value text w =
    match Catalog.builtins.resolve own.method with
      | some d => (d.call value parameters (some here)).run respond w
      | none => (.error (.unknownValidation own.method), w) := by
  rw [judge_eq hprepared respond here value hcatalog, hbuiltin]

include hp hname hown

/-- The verdict on a value does not depend on any answers. -/
theorem judge_of_resolve {d : Definition} (hd : Catalog.builtins.resolve own.method = some d)
    (answer : (q : Request) → Attempt q.Reply) :
    ∃ notes, judge respond e here value text w =
      (((d.call value parameters (some here)).outcome answer).1,
        { w with
          journal := w.journal ++ ((d.call value parameters (some here)).outcome answer).2
          notes := notes }) := by
  rw [judge_of_builtin hcatalog hbuiltin respond here value hprepared, hd]
  exact (call_asks_nothing (A := fun _ => False) hp hname hown hd value parameters
    (some here)).run_eq (fun _ hq => hq.elim) rfl

/-- Judging a rule changes no composer. -/
theorem judge_composers : (judge respond e here value text w).2.composers = w.composers := by
  rcases hd : Catalog.builtins.resolve own.method with _ | d
  · rw [judge_of_builtin hcatalog hbuiltin respond here value hprepared, hd]
  · obtain ⟨notes, hjudge⟩ := judge_of_resolve hp hname hown hcatalog hbuiltin respond here value
      hprepared hd fun _ => .error .noContext
    rw [hjudge]

end

variable (hcuts : e.config.Cuts) {xs : List Value} (hxs : ∀ x ∈ xs, x.IsToken)
  (hlength : 2 ≤ xs.length) {listed separate : String}
  (hlisted : e.config.prepare listed = .ok ⟨own.method, own.parameters ++ [.list xs]⟩)
  (hseparate : e.config.prepare separate = .ok ⟨own.method, own.parameters ++ xs⟩)

include hp hname hown hcatalog hbuiltin hcuts hxs hlength hlisted hseparate

/-- The two texts are judged alike, and in the same way but for the one cut that leaves a predicate
with parameters to report. A verdict is only come to with the whole name or with that cut. -/
theorem judge_alike :
    (judge respond e here value listed w).1 = (judge respond e here value separate w).1 ∧
      (¬(name = "betweenLength" ∧ p = 'L') →
        judge respond e here value listed w = judge respond e here value separate w ∧
          ∀ b, (judge respond e here value listed w).1 = .ok b → own = ⟨name, []⟩) := by
  have hjudge := judge_of_builtin hcatalog hbuiltin respond here value hlisted
  have hjudge' := judge_of_builtin hcatalog hbuiltin respond here value hseparate
  rcases hd : Catalog.builtins.resolve own.method with _ | d
  · rw [hd] at hjudge hjudge'
    rw [hjudge, hjudge']
    exact ⟨rfl, fun _ => ⟨rfl, nofun⟩⟩
  · rw [hd] at hjudge hjudge'
    rcases call_cases hp hname hown hd hxs hlength (Config.isParameter_of_prepare hcuts hlisted)
      (Config.isParameter_of_prepare hcuts hseparate) value (some here) with
      ⟨rfl, hcall⟩ | ⟨hcall, hcall'⟩ | ⟨hcut, hfirst⟩
    · have hsame : judge respond e here value listed w = judge respond e here value separate w := by
        rw [hjudge, hjudge']
        exact congrArg (fun c => c.run respond w) hcall
      exact ⟨congrArg Prod.fst hsame, fun _ => ⟨hsame, fun _ _ => rfl⟩⟩
    · replace hjudge := hjudge.trans (congrArg (fun c => c.run respond w) hcall)
      replace hjudge' := hjudge'.trans (congrArg (fun c => c.run respond w) hcall')
      rw [hjudge, hjudge']
      exact ⟨rfl, fun _ => ⟨rfl, nofun⟩⟩
    · obtain ⟨notes, hrun⟩ := judge_of_resolve hp hname hown hcatalog hbuiltin respond here value
        hlisted hd fun _ => .error .noContext
      obtain ⟨notes', hrun'⟩ := judge_of_resolve hp hname hown hcatalog hbuiltin respond here value
        hseparate hd fun _ => .error .noContext
      refine ⟨?_, fun hn => absurd hcut hn⟩
      rw [hrun, hrun']
      exact hfirst _

end

/-- **A list of tokens and the tokens by themselves come to the same** with each predicate that
takes both. The two rules pass, fail and abort alike, the predicate reports the same, and the
message is the same where the template spreads a list, as the standard templates of ranges do. The
exception is `betweenLength` where an `L` stands before parameters: it is cut, and passes, fails and
aborts alike, but that is all. -/
theorem listed_as_separate {e : Engine} {p l : Char}
    (hp : e.config.parameterDelimiter = .singleton p) (hl : e.config.listDelimiter = .singleton l)
    (hpl : p ≠ l) {w : World} {catalog : Catalog}
    (hcatalog : w.catalogs.get? e.catalog = some catalog) {name : String}
    (hname : name ∈ Catalog.spreading) {own : PreparedRule} (hown : e.config.prepare name = .ok own)
    (hbuiltin : catalog.resolve own.method = Catalog.builtins.resolve own.method)
    {tokens : List String} (hlength : 2 ≤ tokens.length)
    (htokens : ∀ t ∈ tokens, p ∉ t.toList ∧ l ∉ t.toList) (respond : (q : Request) → Run q.Reply)
    (here : Context) (value : Value) :
    let listed := e.config.listed name tokens
    let separate := e.config.separate name tokens
    (judge respond e here value listed w).1 = (judge respond e here value separate w).1 ∧
      (∀ errors fault, (rule respond e here value listed errors w).1 = .error fault ↔
        (rule respond e here value separate errors w).1 = .error fault) ∧
      (¬(name = "betweenLength" ∧ p = 'L') →
        judge respond e here value listed w = judge respond e here value separate w ∧
        ∀ m template, w.composers.get? e.composer = some m →
          m.templateFor name here.form = .ok (some template) → Template.UsesLater template.toList →
            ∀ errors, (rule respond e here value listed errors w).1 =
              (rule respond e here value separate errors w).1) ∧
      (name ∈ ["between", "betweenLength", "digitsLengthBetween"] → ∀ form : String, ∃ template,
        Composer.standard.templateFor name (.text form) = .ok (some template) ∧
          Template.UsesLater template.toList) := by
  intro listed separate
  have hlisted := Config.prepare_listed hp hl hpl hown hlength htokens
  have hseparate := Config.prepare_separate hp hl hpl hown htokens
  rw [← List.length_map e.config.coerceText] at hlength
  have hxs : ∀ x ∈ tokens.map e.config.coerceText, x.IsToken := by
    rw [List.forall_mem_map]
    exact fun token _ => e.config.isToken_coerceText token
  generalize tokens.map e.config.coerceText = xs at hlisted hseparate hlength hxs
  have hcuts := Config.cuts_of_singleton hp hl
  obtain ⟨hfirst, hsame⟩ := judge_alike hp hname hown hcatalog hbuiltin respond here value hcuts hxs
    hlength hlisted hseparate
  have hrule := rule_fst hlisted respond here value
    (judge_composers hp hname hown hcatalog hbuiltin respond here value hlisted)
  have hrule' := rule_fst hseparate respond here value
    (judge_composers hp hname hown hcatalog hbuiltin respond here value hseparate)
  refine ⟨hfirst, fun errors fault => ?_, fun hcut => ⟨(hsame hcut).1, ?_⟩,
    fun hrange => Composer.usesLater_standard hrange⟩
  · rw [hrule, hrule', hfirst]
    rcases (judge respond e here value separate w).1 with fault' | passes
    · exact Iff.rfl
    · cases passes with
      | true => exact Iff.rfl
      | false =>
        have hmap (x : Attempt String) :
            x.map (errors.add (errorKey here.field)) = .error fault ↔ x = .error fault := by
          cases x <;> simp [Except.map]
        have hmessage := messageOf_error_congr e here w own.method
          (Config.isParameter_of_prepare hcuts hlisted)
          (Config.isParameter_of_prepare hcuts hseparate) fault
        exact (hmap _).trans (hmessage.trans (hmap _).symm)
  · intro m template hm htemplate hlater errors
    rw [hrule, hrule', hfirst]
    rcases hjudge : (judge respond e here value separate w).1 with fault | passes
    · rfl
    · cases passes with
      | true => rfl
      | false =>
        obtain rfl := (hsame hcut).2 false (hfirst.trans hjudge)
        exact congrArg (Except.map _) (messageOf_list hm htemplate hlater hxs)

end Run

namespace SevenToTen

/-- Whatever is asked for is not there. -/
def respond (q : Request) : Run q.Reply := Run.fail .noContext

/-- The context of the rules. -/
def here : Context := ⟨.text "form", .text "field"⟩

/-- The two texts of a range, which a 5 is not in. -/
theorem five_fails_alike : ({} : Config).listed "between" ["7", "10"] = "between:7,10" ∧
    ({} : Config).separate "between" ["7", "10"] = "between:7:10" ∧
    (∀ t ∈ ["7", "10"], ':' ∉ t.toList ∧ ',' ∉ t.toList) ∧
    (Run.judge respond FiveDigits.engine here (.text "5") "between:7,10" FiveDigits.world).1 =
      .ok false ∧
    Run.judge respond FiveDigits.engine here (.text "5") "between:7,10" FiveDigits.world =
      Run.judge respond FiveDigits.engine here (.text "5") "between:7:10" FiveDigits.world ∧
    ∀ errors, (Run.rule respond FiveDigits.engine here (.text "5") "between:7,10" errors
        FiveDigits.world).1 =
      (Run.rule respond FiveDigits.engine here (.text "5") "between:7:10" errors
        FiveDigits.world).1 := by
  have hname : "between" ∈ Catalog.spreading := by decide
  have hown : FiveDigits.engine.config.prepare "between" = .ok ⟨"between", []⟩ := rfl
  have hlength : 2 ≤ ["7", "10"].length := by decide
  have htokens : ∀ t ∈ ["7", "10"], ':' ∉ t.toList ∧ ',' ∉ t.toList := by decide
  have hfails : (Run.judge respond FiveDigits.engine here (.text "5") "between:7,10"
      FiveDigits.world).1 = .ok false := by
    decide +kernel
  have hcatalog : FiveDigits.world.catalogs.get? FiveDigits.engine.catalog =
      some Catalog.builtins := rfl
  have hcomposer : FiveDigits.world.composers.get? FiveDigits.engine.composer = some .standard :=
    rfl
  obtain ⟨-, -, hsame, hstandard⟩ := Run.listed_as_separate rfl rfl (by decide : ':' ≠ ',') hcatalog
    hname hown rfl hlength htokens respond here (.text "5")
  obtain ⟨hjudge, hrule⟩ := hsame (by decide)
  obtain ⟨template, htemplate, hlater⟩ := hstandard (by decide) "form"
  exact ⟨rfl, rfl, htokens, hfails, hjudge, hrule .standard template hcomposer htemplate hlater⟩

end SevenToTen

namespace CutName

/-- An engine where an `L` stands before each parameter. -/
def engine : Engine := { FiveDigits.engine with config := { parameterDelimiter := "L" } }

/-- `betweenLength` is cut into `between` and a parameter, and what is reported differs. -/
theorem reports_differ : ¬∀ (e : Engine) (r p l : Char), e.config.ruleDelimiter = .singleton r →
    e.config.parameterDelimiter = .singleton p → e.config.listDelimiter = .singleton l →
    [r, p, l].Nodup → isBlank r = false ∧ isBlank p = false ∧ isBlank l = false →
    ∀ w : World, w.catalogs.get? e.catalog = some Catalog.builtins →
    ∀ name ∈ Catalog.spreading, ∀ tokens : List String, 2 ≤ tokens.length →
    (∀ t ∈ tokens, r ∉ t.toList ∧ p ∉ t.toList ∧ l ∉ t.toList) → ∀ respond here value,
      (Run.judge respond e here value (e.config.listed name tokens) w).2.journal =
        (Run.judge respond e here value (e.config.separate name tokens) w).2.journal := by
  intro h
  have hsame := h engine '|' 'L' ',' rfl rfl rfl (by decide)
    (by decide +kernel) FiveDigits.world rfl
    "betweenLength" (by decide) ["1", "2"] (by decide)
      (by decide) SevenToTen.respond SevenToTen.here
    (.text "abc")
  have hlisted : (Run.judge SevenToTen.respond engine SevenToTen.here (.text "abc")
      (engine.config.listed "betweenLength" ["1", "2"]) FiveDigits.world).2.journal.length = 2 := by
    decide +kernel
  have hseparate : (Run.judge SevenToTen.respond engine SevenToTen.here (.text "abc")
      (engine.config.separate "betweenLength" ["1", "2"]) FiveDigits.world).2.journal.length =
        1 := by
    decide +kernel
  rw [hsame, hseparate] at hlisted
  exact absurd hlisted (by decide)

end CutName

end FormRules
