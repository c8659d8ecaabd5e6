import Footfall.Proofs.Pieces

/-!
The names in a compiled query. Of the fields that a widget refers to the first that is not a bare
name, or is not among the columns, is the failure of the compilation. If there is none, the names
that stand in double quotes are those fields and the columns of the metric, of the time series and of
the scope; fields that the widget does not refer to have no influence.
-/

namespace Footfall.Report

open Sql

/-- Where a reader of quotes is: outside of all quotes, in a literal, or in a name of which it has
read the front. -/
inductive Place
  | outside
  | literal
  | name (front : List Char)

structure QuoteReader where
  place : Place
  /-- The names in double quotes that have been read. -/
  names : List String

namespace QuoteReader

def step (r : QuoteReader) (c : Char) : QuoteReader :=
  match r.place with
  | .outside =>
    if c = '\'' then ⟨.literal, r.names⟩ else if c = '"' then ⟨.name [], r.names⟩ else r
  | .literal => if c = '\'' then ⟨.outside, r.names⟩ else r
  | .name front =>
    if c = '"' then ⟨.outside, r.names ++ [String.ofList front]⟩
    else ⟨.name (front ++ [c]), r.names⟩

variable {c : Char} {names : List String} {front : List Char}

theorem step_outside (hc : c ≠ '\'' ∧ c ≠ '"') : step ⟨.outside, names⟩ c = ⟨.outside, names⟩ := by
  simp [step, hc]

theorem step_literal (hc : c ≠ '\'') : step ⟨.literal, names⟩ c = ⟨.literal, names⟩ := by
  simp [step, hc]

theorem step_name (hc : c ≠ '"') :
    step ⟨.name front, names⟩ c = ⟨.name (front ++ [c]), names⟩ := by
  simp [step, hc]

end QuoteReader

/-- The names in double quotes of a text, those in literals apart. -/
def quotedNames (s : String) : List String := (s.toList.foldl QuoteReader.step ⟨.outside, []⟩).names

/-- A text without quotes. -/
def IsUnquoted (a : List Char) : Prop := '\'' ∉ a ∧ '"' ∉ a

instance (a : List Char) : Decidable (IsUnquoted a) :=
  inferInstanceAs (Decidable ('\'' ∉ a ∧ '"' ∉ a))

/-- A text whose quotes are all closed, with the names that stand in double quotes. -/
def HasNames (a : List Char) (names : List String) : Prop :=
  ∀ before, a.foldl QuoteReader.step ⟨.outside, before⟩ = ⟨.outside, before ++ names⟩

namespace HasNames

variable {a b : List Char} {ns ms : List String}

theorem nil : HasNames [] [] := fun before ↦ by simp

theorem append (ha : HasNames a ns) (hb : HasNames b ms) : HasNames (a ++ b) (ns ++ ms) := by
  intro before
  rw [List.foldl_append, ha, hb, List.append_assoc]

theorem quotedNames_eq {s : String} (h : HasNames s.toList ns) : quotedNames s = ns := by
  rw [quotedNames, h, List.nil_append]

theorem of_plain (h : IsUnquoted a) : HasNames a [] := by
  induction a with
  | nil => exact nil
  | cons c a ih =>
    obtain ⟨hsingle, hsingle'⟩ := not_or.1 (List.mem_cons.not.1 h.1)
    obtain ⟨hdouble, hdouble'⟩ := not_or.1 (List.mem_cons.not.1 h.2)
    intro before
    rw [List.foldl_cons, QuoteReader.step_outside ⟨Ne.symm hsingle, Ne.symm hdouble⟩]
    exact ih ⟨hsingle', hdouble'⟩ before

/-- By induction on the name: its characters are read one by one up to the closing quote. -/
theorem identifier {name : String} (h : '"' ∉ name.toList) :
    HasNames (identifier name).toList [name] := by
  have hread (before : List String) (front rest : List Char) (hrest : '"' ∉ rest) :
      (rest ++ ['"']).foldl QuoteReader.step ⟨.name front, before⟩ =
        ⟨.outside, before ++ [String.ofList (front ++ rest)]⟩ := by
    induction rest generalizing front with
    | nil => simp [QuoteReader.step]
    | cons c rest ih =>
      obtain ⟨hc, hrest⟩ := not_or.1 (List.mem_cons.not.1 hrest)
      rw [List.cons_append, List.foldl_cons, QuoteReader.step_name (Ne.symm hc), ih _ hrest,
        List.append_assoc, List.singleton_append]
  intro before
  have htext : (Report.identifier name).toList = '"' :: (name.toList ++ ['"']) := by
    simp [Report.identifier]
  rw [htext, List.foldl_cons]
  have hfirst : QuoteReader.step ⟨.outside, before⟩ '"' = ⟨.name [], before⟩ := rfl
  rw [hfirst, hread before [] name.toList h, List.nil_append, String.ofList_toList]

/-- By induction on the value: a doubled quote leads out of the literal and back into it. -/
theorem literal (s : String) : HasNames (literal s).toList [] := by
  have hread (before : List String) (cs : List Char) :
      (doubled cs ++ ['\'']).foldl QuoteReader.step ⟨.literal, before⟩ = ⟨.outside, before⟩ := by
    induction cs with
    | nil => rfl
    | cons c cs ih =>
      rw [doubled]
      split
      · exact ih
      · rename_i hc
        rw [List.cons_append, List.foldl_cons, QuoteReader.step_literal hc, ih]
  intro before
  rw [Report.literal, String.toList_ofList, List.append_nil]
  exact hread before s.toList

theorem toString (n : Int) : HasNames (toString n).toList [] :=
  of_plain ⟨fun hc ↦ (isDigit_of_mem_toString hc).elim (by decide) (by decide),
    fun hc ↦ (isDigit_of_mem_toString hc).elim (by decide) (by decide)⟩

/-- The names in pieces are those in their text, if their words have no quotes. -/
theorem written {ps : List Piece} (hwords : ∀ s, .word s ∈ ps → IsUnquoted s.toList)
    (hnames : ∀ field ∈ namesIn ps, '"' ∉ field.toList) : HasNames (written ps) (namesIn ps) := by
  induction ps with
  | nil => exact nil
  | cons p ps ih =>
    have hwords' := fun s hs ↦ hwords s (List.mem_cons_of_mem p hs)
    cases p with
    | word s => exact (of_plain (hwords s (List.mem_cons_self ..))).append (ih hwords' hnames)
    | name field =>
      obtain ⟨hfield, hnames⟩ := List.forall_mem_cons.1 hnames
      exact (identifier hfield).append (ih hwords' hnames)
    | value s => exact (literal s).append (ih hwords' hnames)
    | whole n => exact (toString n).append (ih hwords' hnames)

end HasNames

theorem isUnquoted_of_mem_words : ∀ s ∈ words, IsUnquoted s.toList := by
  decide

/-- The names in a query are those in its pieces. -/
theorem ChartQuery.quotedNames_text {q : ChartQuery}
    (h : ∀ field ∈ namesIn q.pieces, '"' ∉ field.toList) :
    quotedNames q.text = namesIn q.pieces := by
  refine HasNames.quotedNames_eq ?_
  rw [← q.written_pieces]
  exact .written (fun s hs ↦ isUnquoted_of_mem_words s (q.areOf_pieces _ hs)) h

/-- A letter of ASCII, or a low line. -/
def IsLetter (c : Char) : Prop := ('A' ≤ c ∧ c ≤ 'Z') ∨ ('a' ≤ c ∧ c ≤ 'z') ∨ c = '_'

/-- A name that needs no quotes: a letter, followed by letters and digits. -/
def IsBareName (s : String) : Prop :=
  ∃ c rest, s.toList = c :: rest ∧ IsLetter c ∧ ∀ d ∈ rest, IsLetter d ∨ ('0' ≤ d ∧ d ≤ '9')

theorem isIdentifierStart_iff (c : Char) : isIdentifierStart c = true ↔ IsLetter c := by
  have hupper : c.isUpper = true ↔ 'A' ≤ c ∧ c ≤ 'Z' := decide_eq_true_iff
  have hlower : c.isLower = true ↔ 'a' ≤ c ∧ c ≤ 'z' :=
    (Bool.and_eq_true _ _).to_iff.trans (and_congr decide_eq_true_iff decide_eq_true_iff)
  have halpha : c.isAlpha = true ↔ c.isUpper = true ∨ c.isLower = true :=
    (Bool.or_eq_true _ _).to_iff
  rw [isIdentifierStart, Bool.or_eq_true, halpha, hupper, hlower, beq_iff_eq, IsLetter, or_assoc]

theorem isIdentifierRest_iff (c : Char) :
    isIdentifierRest c = true ↔ IsLetter c ∨ ('0' ≤ c ∧ c ≤ '9') := by
  have hdigit : c.isDigit = true ↔ '0' ≤ c ∧ c ≤ '9' :=
    (Bool.and_eq_true _ _).to_iff.trans (and_congr decide_eq_true_iff decide_eq_true_iff)
  have halphanum : c.isAlphanum = true ↔ c.isAlpha = true ∨ c.isDigit = true :=
    (Bool.or_eq_true _ _).to_iff
  rw [isIdentifierRest, Bool.or_eq_true, halphanum, ← isIdentifierStart_iff, isIdentifierStart,
    Bool.or_eq_true, ← hdigit]
  tauto

theorem isIdentifier_iff (s : String) : isIdentifier s = true ↔ IsBareName s := by
  unfold isIdentifier IsBareName
  split
  · rename_i c rest hs
    simp [hs, isIdentifierStart_iff, isIdentifierRest_iff]
  · rename_i hs
    simp [hs]

/-- What is wrong with the name of a field: whether it is a bare name is looked at first. -/
def Breaks (columns : List String) (field : String) : FieldRule → Prop
  | .pattern => ¬IsBareName field
  | .available => IsBareName field ∧ field ∉ columns

/-- A field that may be named: a bare name of one of the columns. -/
def IsGood (columns : List String) (field : String) : Prop := IsBareName field ∧ field ∈ columns

theorem checkName_of_isGood {columns : List String} {field : String} (h : IsGood columns field) :
    checkName field columns = .ok field := by
  simp [checkName, checkField, (isIdentifier_iff field).2 h.1, h.2]

theorem checkName_of_breaks {columns : List String} {field : String} {rule : FieldRule}
    (h : Breaks columns field rule) :
    checkName field columns = .error (.field (.text field) rule) := by
  cases rule with
  | pattern =>
    have hno : isIdentifier field = false := by
      rwa [← Bool.not_eq_true, isIdentifier_iff]
    simp [checkName, checkField, hno]
  | available => simp [checkName, checkField, (isIdentifier_iff field).2 h.1, h.2]

theorem isGood_or_breaks (columns : List String) (field : String) :
    IsGood columns field ∨ ∃ rule, Breaks columns field rule := by
  by_cases hname : IsBareName field
  · by_cases hmem : field ∈ columns
    · exact .inl ⟨hname, hmem⟩
    · exact .inr ⟨.available, hname, hmem⟩
  · exact .inr ⟨.pattern, hname⟩

/-- The first of several fields that may not be named, and the rule that it breaks. -/
def IsFirstBad (columns fields : List String) (field : String) (rule : FieldRule) : Prop :=
  ∃ before after, fields = before ++ field :: after ∧ (∀ f ∈ before, IsGood columns f) ∧
    Breaks columns field rule

theorem all_isGood_or_isFirstBad (columns fields : List String) :
    (∀ f ∈ fields, IsGood columns f) ∨ ∃ field rule, IsFirstBad columns fields field rule := by
  induction fields with
  | nil => exact .inl (by simp)
  | cons f fields ih =>
    rcases isGood_or_breaks columns f with hgood | ⟨rule, hrule⟩
    · rcases ih with hall | ⟨field, rule, before, after, rfl, hbefore, hrule⟩
      · exact .inl (List.forall_mem_cons.2 ⟨hgood, hall⟩)
      · exact .inr ⟨field, rule, f :: before, after, rfl, List.forall_mem_cons.2 ⟨hgood, hbefore⟩,
          hrule⟩
    · exact .inr ⟨f, rule, [], fields, rfl, by simp, hrule⟩

theorem checkFields_cons (f : String) (fields columns : List String) :
    checkFields (f :: fields) columns =
      ((checkName f columns).map fun _ ↦ ()) >>= fun _ ↦ checkFields fields columns := rfl

theorem checkFields_of_isGood {columns fields : List String} (h : ∀ f ∈ fields, IsGood columns f) :
    checkFields fields columns = .ok () := by
  induction fields with
  | nil => rfl
  | cons f fields ih =>
    obtain ⟨hf, hfields⟩ := List.forall_mem_cons.1 h
    rw [checkFields_cons, checkName_of_isGood hf, ih hfields]
    rfl

/-- The check of several fields fails for the first that is bad. -/
theorem checkFields_of_isFirstBad {columns fields : List String} {field : String}
    {rule : FieldRule} (h : IsFirstBad columns fields field rule) :
    checkFields fields columns = .error (.field (.text field) rule) := by
  obtain ⟨before, after, rfl, hbefore, hrule⟩ := h
  induction before with
  | nil =>
    rw [List.nil_append, checkFields_cons, checkName_of_breaks hrule]
    rfl
  | cons f before ih =>
    obtain ⟨hf, hbefore⟩ := List.forall_mem_cons.1 hbefore
    rw [List.cons_append, checkFields_cons, checkName_of_isGood hf, ih hbefore]
    rfl

variable {w : Widget} {columns : List String} {dialect : Value} {d : Dialect}
  {scope : Option Scope}

/-- The columns that a query may name beside the fields that the widget refers to. -/
inductive IsImplied (w : Widget) (scope : Option Scope) : String → Prop
  | session (h : w.aggregation = .uniqueUsers) : IsImplied w scope "rid"
  | time (hchart : w.chart ≠ .sankey) (hfield : w.xField = "created_at") :
      IsImplied w scope "created_at"
  | site (h : scope.isSome) : IsImplied w scope "site_id"
  | team (h : scope.isSome) : IsImplied w scope "team_id"

theorem compile_none (hd : Dialect.ofValue dialect = .ok d) :
    compile w columns none dialect scope = checkFields (referencedFields w) columns >>= fun _ ↦
      (scopeConditions scope).mapError .fault >>= fun tenant ↦
        .ok ⟨d, groupingOf w, metricOf w, tenant ++ [], rowLimit w.limit⟩ := by
  simp only [compile, hd, filterConditions]
  rfl

theorem not_mem_of_isBareName {s : String} (h : IsBareName s) : '"' ∉ s.toList := by
  obtain ⟨c, rest, hs, hc, hrest⟩ := h
  rw [hs]
  intro hmem
  rcases List.mem_cons.1 hmem with rfl | hmem
  · revert hc
    unfold IsLetter
    decide
  · have := hrest _ hmem
    revert this
    unfold IsLetter
    decide

theorem isGood_of_checkName {f s : String} (h : checkName f columns = .ok s) :
    IsGood columns f := by
  rcases isGood_or_breaks columns f with hgood | ⟨rule, hrule⟩
  · exact hgood
  · rw [checkName_of_breaks hrule] at h
    cases h

theorem mem_names_groupingOf {name : String} (h : name ∈ (groupingOf w).names) :
    name ∈ referencedFields w ∨ IsImplied w scope name := by
  unfold groupingOf at h
  split at h
  · rename_i hw
    exact .inl (List.mem_append_left _ (by simpa [groupFields, hw, Grouping.names] using h))
  · split at h
    · rename_i hw htime
      obtain rfl := List.mem_singleton.1 h
      exact .inr (.time hw htime)
    · rename_i hw _
      exact .inl (List.mem_append_left _ (by simpa [groupFields, hw, Grouping.names] using h))

theorem mem_names_metricOf {name : String} (h : name ∈ (metricOf w).names d) :
    name ∈ referencedFields w ∨ IsImplied w scope name := by
  have hnumber {field : String} (h : name ∈ numberNames d field) : name = field := by
    cases d <;> simpa [numberNames] using h
  unfold metricOf at h
  split at h
  · cases h
  · rename_i hw
    obtain rfl := List.mem_singleton.1 h
    exact .inr (.session hw)
  · rename_i hw
    exact .inl (List.mem_append_right _ (by simpa [metricFields, hw] using hnumber h))
  · rename_i hw
    exact .inl (List.mem_append_right _ (by simpa [metricFields, hw] using hnumber h))

theorem IsImplied.not_mem {name : String} (h : IsImplied w scope name) : '"' ∉ name.toList := by
  cases h <;> decide

theorem isImplied_of_mem_scopeConditions {cs : List Condition} (h : scopeConditions scope = .ok cs) :
    ∀ c ∈ cs, IsImplied w scope c.field := by
  cases scope with
  | none =>
    cases h
    simp
  | some s =>
    obtain ⟨n, m, rfl⟩ := exists_of_scopeConditions h
    simp only [List.forall_mem_cons, Condition.field]
    exact ⟨.site rfl, .team rfl, by simp⟩

/-- The names of a query without filters are the fields that are referred to and what is implied. -/
theorem quotedNames_of_compile {q : ChartQuery}
    (h : compile w columns none dialect scope = .ok q) :
    ∀ name ∈ quotedNames q.text, name ∈ referencedFields w ∨ IsImplied w scope name := by
  obtain ⟨d, tenant, filtered, -, hfields, htenant, hfiltered, hparts⟩ := compile_parts h
  cases hfiltered
  have hnames : ∀ name ∈ namesIn q.pieces,
      name ∈ referencedFields w ∨ IsImplied w scope name := by
    intro name hname
    rw [q.namesIn_pieces, hparts, List.append_nil] at hname
    rcases List.mem_append.1 hname with hname | hname
    · rcases List.mem_append.1 hname with hname | hname
      · exact mem_names_groupingOf hname
      · exact mem_names_metricOf hname
    · obtain ⟨c, hc, rfl⟩ := List.mem_map.1 hname
      exact .inr (isImplied_of_mem_scopeConditions htenant c hc)
  rw [ChartQuery.quotedNames_text fun name hname ↦ ?_]
  · exact hnames
  · rcases hnames name hname with hfield | himplied
    · exact not_mem_of_isBareName (isGood_of_checkName (hfields name hfield).choose_spec).1
    · exact himplied.not_mem

/-- Fields that are not referred to have no influence. -/
theorem compile_congr {w' : Widget} (hchart : w'.chart = w.chart)
    (haggregation : w'.aggregation = w.aggregation) (hlimit : w'.limit = w.limit)
    (hfields : referencedFields w' = referencedFields w) (filters : Option WidgetFilters) :
    compile w' columns filters dialect scope = compile w columns filters dialect scope := by
  have hlength : (groupFields w').length = (groupFields w).length := by
    simp only [groupFields, hchart]
    split <;> rfl
  obtain ⟨hgroup, hmetric⟩ := List.append_inj hfields hlength
  have hgrouping : groupingOf w' = groupingOf w := by
    unfold groupingOf
    simp only [groupFields, hchart] at hgroup ⊢
    split at hgroup <;> simp_all
  have hmetricOf : metricOf w' = metricOf w := by
    unfold metricOf
    simp only [metricFields, haggregation] at hmetric ⊢
    split <;> simp_all
  simp only [compile, hfields, hgrouping, hmetricOf, hlimit]

theorem compile_of_isGood (hd : Dialect.ofValue dialect = .ok d) {tenant : List Condition}
    (hscope : scopeConditions scope = .ok tenant)
    (h : ∀ field ∈ referencedFields w, IsGood columns field) :
    ∃ q, compile w columns none dialect scope = .ok q := by
  rw [compile_none hd, checkFields_of_isGood h, hscope]
  exact ⟨_, rfl⟩

theorem compile_of_isFirstBad (hd : Dialect.ofValue dialect = .ok d) {field : String}
    {rule : FieldRule} (h : IsFirstBad columns (referencedFields w) field rule) :
    compile w columns none dialect scope = .error (.field (.text field) rule) := by
  rw [compile_none hd, checkFields_of_isFirstBad h]
  rfl

/-- Where the scope is no number the compilation of good fields fails for that instead. -/
theorem compile_of_scope_error (hd : Dialect.ofValue dialect = .ok d) {fault : Fault}
    (hscope : scopeConditions scope = .error fault)
    (h : ∀ field ∈ referencedFields w, IsGood columns field) :
    compile w columns none dialect scope = .error (.fault fault) := by
  rw [compile_none hd, checkFields_of_isGood h, hscope]
  rfl

/-- The compilation fails for a field exactly if there is a first bad one, which is told. -/
theorem compile_eq_field_iff (hd : Dialect.ofValue dialect = .ok d) {name : Value}
    {rule : FieldRule} :
    compile w columns none dialect scope = .error (.field name rule) ↔
      ∃ field, name = .text field ∧ IsFirstBad columns (referencedFields w) field rule := by
  constructor
  · intro h
    rcases all_isGood_or_isFirstBad columns (referencedFields w) with hgood | ⟨field, rule', hbad⟩
    · cases hscope : scopeConditions scope with
      | error fault =>
        rw [compile_of_scope_error hd hscope hgood] at h
        cases h
      | ok tenant =>
        obtain ⟨q, hq⟩ := compile_of_isGood hd hscope hgood
        rw [hq] at h
        cases h
    · rw [compile_of_isFirstBad hd hbad] at h
      cases h
      exact ⟨field, rfl, hbad⟩
  · rintro ⟨field, rfl, hbad⟩
    exact compile_of_isFirstBad hd hbad

theorem exists_isFirstBad_iff {fields : List String} :
    (∃ field rule, IsFirstBad columns fields field rule) ↔
      ∃ field ∈ fields, ¬IsBareName field ∨ field ∉ columns := by
  constructor
  · rintro ⟨field, rule, before, after, rfl, -, hrule⟩
    refine ⟨field, by simp, ?_⟩
    cases rule with
    | pattern => exact .inl hrule
    | available => exact .inr hrule.2
  · rintro ⟨field, hfield, hbad⟩
    rcases all_isGood_or_isFirstBad columns fields with hgood | hfirst
    · exact absurd (hgood field hfield) fun h ↦ hbad.elim (· h.1) (· h.2)
    · exact hfirst

/-- The compilation of a widget without filters fails for a field exactly if one that the widget
refers to is bad, and then tells the first that is. Otherwise there is a query, provided that the
scope is of numbers; its names are the fields referred to and what is implied; and other fields have
no influence on the outcome. -/
theorem names_checked (hd : Dialect.ofValue dialect = .ok d) (scope : Option Scope) (w : Widget)
    (columns : List String) :
    (∀ name rule, compile w columns none dialect scope = .error (.field name rule) ↔
        ∃ field, name = .text field ∧ IsFirstBad columns (referencedFields w) field rule) ∧
      ((∃ name rule, compile w columns none dialect scope = .error (.field name rule)) ↔
        ∃ field ∈ referencedFields w, ¬IsBareName field ∨ field ∉ columns) ∧
      ((∀ field ∈ referencedFields w, IsBareName field ∧ field ∈ columns) →
        ∀ tenant, scopeConditions scope = .ok tenant →
          ∃ q, compile w columns none dialect scope = .ok q ∧
            ∀ name ∈ quotedNames q.text, name ∈ referencedFields w ∨ IsImplied w scope name) ∧
      ∀ w' : Widget, w'.chart = w.chart → w'.aggregation = w.aggregation → w'.limit = w.limit →
        referencedFields w' = referencedFields w →
        compile w' columns none dialect scope = compile w columns none dialect scope := by
  refine ⟨fun name rule ↦ compile_eq_field_iff hd, ?_, fun hgood tenant hscope ↦ ?_,
    fun w' hchart haggregation hlimit hfields ↦
      compile_congr hchart haggregation hlimit hfields none⟩
  · rw [← exists_isFirstBad_iff]
    constructor
    · rintro ⟨name, rule, h⟩
      obtain ⟨field, -, hbad⟩ := (compile_eq_field_iff hd).1 h
      exact ⟨field, rule, hbad⟩
    · rintro ⟨field, rule, hbad⟩
      exact ⟨_, rule, compile_of_isFirstBad hd hbad⟩
  · obtain ⟨q, hq⟩ := compile_of_isGood hd hscope hgood
    exact ⟨q, hq, quotedNames_of_compile hq⟩

/-- A flow whose target is not a name, summed over a field that is no column. -/
def injectedFlow : Widget :=
  { chart := .sankey, sourceField := "country", targetField := "x\" --", aggregation := .sum,
    yField := "password" }

/-- The target is told, though the summed field is bad too. Sessions by country are a query with the
names of both and of a scope. -/
theorem names_checked_injectedFlow :
    Dialect.ofValue (.text "sqlite") = .ok .sqlite ∧
      compile injectedFlow ["country"] none (.text "sqlite") none =
        .error (.field (.text "x\" --") .pattern) ∧
      ∃ q, compile { xField := "country", aggregation := .uniqueUsers } ["country"] none
        (.text "sqlite") (some ⟨.int 1, .int 10⟩) = .ok q ∧
        ∀ name ∈ quotedNames q.text, name ∈ ["country", "rid", "site_id", "team_id"] := by
  have hd : Dialect.ofValue (.text "sqlite") = .ok .sqlite := rfl
  have hcountry : IsGood ["country"] "country" :=
    ⟨(isIdentifier_iff "country").1 rfl, List.mem_singleton_self _⟩
  have htarget : ¬IsBareName "x\" --" := fun h ↦ by
    have := (isIdentifier_iff "x\" --").2 h
    revert this
    decide
  refine ⟨hd, ((names_checked hd none injectedFlow ["country"]).1 _ _).2
    ⟨_, rfl, ["country"], ["password"], rfl, by simpa using hcountry, htarget⟩, ?_⟩
  obtain ⟨q, hq, hnames⟩ := (names_checked hd (some ⟨.int 1, .int 10⟩)
    { xField := "country", aggregation := .uniqueUsers } ["country"]).2.2.1
      (by rintro field (_ | ⟨_, ⟨⟩⟩); exact hcountry) _ rfl
  refine ⟨q, hq, fun name hname ↦ ?_⟩
  rcases hnames name hname with hmem | hmem
  · rcases hmem with _ | ⟨_, ⟨⟩⟩
    simp
  · rcases hmem with _ | ⟨-, hfield⟩ | _ | _
    · simp
    · exact absurd hfield (by decide)
    · simp
    · simp

end Footfall.Report
