import Footfall.Proofs.Lexing
import Footfall.Sql.Select

/-!
Statements as they are read off their tokens. Numbers stand in limits only, so a statement whose last
tokens are a limit with a number has that limit, and puts out no more rows.
-/

namespace Footfall

theorem Table.length_limited {α : Type} {n : Int} (hn : 0 ≤ n) (xs : List α) :
    ((limited n xs).length : Int) ≤ n := by
  rw [limited, if_neg (by omega), List.length_take]
  omega

namespace Sql

namespace Reader

variable {α β : Type} {P : Token → Prop}

/-- What a reader takes off the front are tokens of one sort. -/
def Takes (P : Token → Prop) (r : Reader α) : Prop :=
  ∀ ⦃ts a rest⦄, r ts = some (a, rest) → ∃ taken, ts = taken ++ rest ∧ ∀ t ∈ taken, P t

theorem bind_eq_some_iff {r : Reader α} {f : α → Reader β} {ts rest : List Token} {b : β} :
    (r >>= f) ts = some (b, rest) ↔ ∃ a mid, r ts = some (a, mid) ∧ f a mid = some (b, rest) := by
  change (r ts).bind (fun p ↦ f p.1 p.2) = _ ↔ _
  simp [Option.bind_eq_some_iff]

theorem Takes.bind {r : Reader α} {f : α → Reader β} (hr : Takes P r) (hf : ∀ a, Takes P (f a)) :
    Takes P (r >>= f) := by
  intro ts b rest h
  obtain ⟨a, mid, hfirst, hthen⟩ := bind_eq_some_iff.1 h
  obtain ⟨taken, rfl, htaken⟩ := hr hfirst
  obtain ⟨more, rfl, hmore⟩ := hf a hthen
  refine ⟨taken ++ more, by simp, fun t ht ↦ ?_⟩
  exact (List.mem_append.1 ht).elim (htaken t) (hmore t)

theorem takes_pure (a : α) : Takes P (pure a : Reader α) := by
  rintro ts b rest ⟨⟩
  exact ⟨[], rfl, by simp⟩

theorem takes_failure : Takes P (failure : Reader α) := nofun

theorem takes_failure_bind {f : α → Reader β} : Takes P (failure >>= f) := by
  rintro ts b rest ⟨⟩

theorem takes_get : Takes P (get : Reader (List Token)) := by
  rintro ts b rest ⟨⟩
  exact ⟨[], rfl, by simp⟩

theorem Takes.imp {Q : Token → Prop} {r : Reader α} (hr : Takes P r) (h : ∀ t, P t → Q t) :
    Takes Q r := by
  intro ts a rest hread
  obtain ⟨taken, hts, htaken⟩ := hr hread
  exact ⟨taken, hts, fun t ht ↦ h t (htaken t ht)⟩

theorem maybe_eq_some_some {r : Reader α} {ts rest : List Token} {a : α}
    (h : maybe r ts = some (some a, rest)) : r ts = some (a, rest) := by
  unfold maybe at h
  split at h
  · rename_i b mid hread
    cases h
    exact hread
  · cases h

theorem maybe_eq_some_none {r : Reader α} {ts rest : List Token}
    (h : maybe r ts = some (none, rest)) : rest = ts := by
  unfold maybe at h
  split at h
  · cases h
  · cases h
    rfl

theorem Takes.maybe {r : Reader α} (hr : Takes P r) : Takes P (maybe r) := by
  intro ts found rest h
  cases found with
  | some a => exact hr (maybe_eq_some_some h)
  | none =>
    cases maybe_eq_some_none h
    exact ⟨[], rfl, by simp⟩

theorem next_bind_eq_some {f : Token → Reader β} {ts rest : List Token} {b : β}
    (h : (next >>= f) ts = some (b, rest)) :
    ∃ t tail, ts = t :: tail ∧ f t tail = some (b, rest) := by
  obtain ⟨t, tail, hnext, hthen⟩ := bind_eq_some_iff.1 h
  cases ts with
  | nil => cases hnext
  | cons first ts =>
    cases hnext
    exact ⟨t, tail, rfl, hthen⟩

/-- The token that is read first is of the sort if the reading can go on from it. -/
theorem takes_next {f : Token → Reader β} (hfirst : ∀ t ts p, f t ts = some p → P t)
    (hf : ∀ t, Takes P (f t)) : Takes P (next >>= f) := by
  intro ts b rest h
  obtain ⟨t, tail, rfl, hthen⟩ := next_bind_eq_some h
  obtain ⟨taken, rfl, htaken⟩ := hf t hthen
  refine ⟨t :: taken, rfl, fun x hx ↦ ?_⟩
  rcases List.mem_cons.1 hx with rfl | hx
  · exact hfirst x _ _ hthen
  · exact htaken x hx

/-- A name, a word, a mark or a literal. -/
def IsFixed : Token → Prop
  | .number _ | .unfinished => False
  | _ => True

theorem takes_word (w : String) : Takes IsFixed (word w) := by
  refine takes_next (fun t ts p h ↦ ?_) fun t ↦ ?_
  · cases t with
    | word cs => trivial
    | _ => cases h
  · split
    · exact takes_failure
    · exact takes_pure _

theorem takes_mark (c : Char) : Takes IsFixed (mark c) := by
  refine takes_next (fun t ts p h ↦ ?_) fun t ↦ ?_
  · cases t with
    | mark d => trivial
    | _ => cases h
  · split
    · exact takes_failure
    · exact takes_pure _

theorem takes_name : Takes IsFixed name := by
  refine takes_next (fun t ts p h ↦ ?_) fun t ↦ ?_
  · cases t with
    | number cs => cases h
    | unfinished => cases h
    | _ => trivial
  · dsimp only
    split
    · exact takes_failure_bind
    · split
      · exact takes_pure _
      · exact takes_failure

theorem takes_literal : Takes IsFixed literal := by
  refine takes_next (fun t ts p h ↦ ?_) fun t ↦ ?_
  · cases t with
    | literal cs => trivial
    | _ => cases h
  · split
    · exact takes_pure _
    · exact takes_failure

theorem Takes.more {r : Reader α} (hr : Takes P r) (hcomma : Takes P (mark ',')) (n : Nat) :
    Takes P (more r n) := by
  induction n with
  | zero => exact takes_pure _
  | succ n ih =>
    refine hcomma.maybe.bind fun found ↦ ?_
    cases found with
    | none => exact takes_pure _
    | some u => exact hr.bind fun a ↦ ih.bind fun as ↦ takes_pure _

theorem Takes.items {r : Reader α} (hr : Takes P r) (hcomma : Takes P (mark ',')) :
    Takes P (items r) :=
  hr.bind fun _ ↦ takes_get.bind fun _ ↦ (hr.more hcomma _).bind fun _ ↦ takes_pure _

theorem takes_count : Takes IsFixed count := by
  refine takes_next (fun t ts p h ↦ ?_) fun t ↦ ?_
  · cases t with
    | word cs => trivial
    | _ => cases h
  · have halias : Takes IsFixed (do word "as"; name) := (takes_word "as").bind fun _ ↦ takes_name
    dsimp only
    split
    · exact takes_failure_bind
    · exact (takes_mark '(').bind fun _ ↦ (takes_mark '*').bind fun _ ↦ (takes_mark ')').bind fun _ ↦
        halias.maybe.bind fun _ ↦ takes_pure _

theorem takes_output : Takes IsFixed output := by
  refine (takes_mark '*').maybe.bind fun found ↦ ?_
  cases found with
  | some u => exact takes_pure _
  | none =>
    refine takes_count.maybe.bind fun found ↦ ?_
    cases found with
    | some o => exact takes_pure _
    | none => exact takes_name.bind fun _ ↦ takes_pure _

theorem takes_sortKey : Takes IsFixed sortKey := by
  refine takes_name.bind fun n ↦ (takes_word "desc").maybe.bind fun found ↦ ?_
  cases found with
  | some u => exact takes_pure _
  | none => exact (takes_word "asc").maybe.bind fun _ ↦ takes_pure _

theorem takes_condition : Takes IsFixed condition :=
  (takes_word "where").bind fun _ ↦ takes_name.bind fun _ ↦ (takes_mark '=').bind fun _ ↦
    takes_literal.bind fun _ ↦ takes_pure _

/-- A query as far as its limit. -/
def unlimited : Reader Select := do
  word "select"
  let outputs ← items output
  word "from"
  let source ← name
  let condition ← maybe condition
  let groups ← maybe (do word "group"; word "by"; items name)
  let order ← maybe (do word "order"; word "by"; items sortKey)
  return ⟨outputs, source, condition, groups.getD [], order.getD [], none⟩

theorem select_eq : select = do
    let s ← unlimited
    return { s with limit := ← maybe limit } := by
  simp only [select, unlimited, bind_assoc, pure_bind]

theorem takes_unlimited : Takes IsFixed unlimited := by
  have hcomma := takes_mark ','
  refine (takes_word "select").bind fun _ ↦ (takes_output.items hcomma).bind fun outputs ↦
    (takes_word "from").bind fun _ ↦ takes_name.bind fun source ↦
    takes_condition.maybe.bind fun condition ↦ ?_
  have hgroups : Takes IsFixed (do word "group"; word "by"; items name) :=
    (takes_word "group").bind fun _ ↦ (takes_word "by").bind fun _ ↦ takes_name.items hcomma
  have horder : Takes IsFixed (do word "order"; word "by"; items sortKey) :=
    (takes_word "order").bind fun _ ↦ (takes_word "by").bind fun _ ↦ takes_sortKey.items hcomma
  exact hgroups.maybe.bind fun _ ↦ horder.maybe.bind fun _ ↦ takes_pure _

theorem word_eq_some {w : String} {ts rest : List Token} {u : Unit}
    (h : word w ts = some (u, rest)) : ∃ cs, ts = .word cs :: rest := by
  obtain ⟨t, tail, rfl, hthen⟩ := next_bind_eq_some h
  cases t with
  | word cs =>
    split at hthen
    · cases hthen
    · cases hthen
      exact ⟨cs, rfl⟩
  | _ => cases hthen

theorem mark_eq_some {c : Char} {ts rest : List Token} {u : Unit}
    (h : mark c ts = some (u, rest)) : ∃ d, ts = .mark d :: rest := by
  obtain ⟨t, tail, rfl, hthen⟩ := next_bind_eq_some h
  cases t with
  | mark d =>
    split at hthen
    · cases hthen
    · cases hthen
      exact ⟨d, rfl⟩
  | _ => cases hthen

theorem whole_eq_some {ts rest : List Token} {n : Int} (h : whole ts = some (n, rest)) :
    ∃ ds, ts = .number ds :: rest ∧ n = Text.natural ds := by
  obtain ⟨t, tail, rfl, hthen⟩ := next_bind_eq_some h
  cases t with
  | number ds =>
    dsimp only at hthen
    split at hthen
    · cases hthen
      exact ⟨ds, rfl, rfl⟩
    · cases hthen
  | _ => cases hthen

/-- A limit is a word and a number, with a mark between if it is negative. -/
theorem limit_eq_some {ts rest : List Token} {n : Int} (h : limit ts = some (n, rest)) :
    ∃ w ds, (ts = .word w :: .number ds :: rest ∧ n = Text.natural ds) ∨
      ∃ d, ts = .word w :: .mark d :: .number ds :: rest := by
  unfold limit at h
  rw [bind_eq_some_iff] at h
  obtain ⟨u, signed, hword, h⟩ := h
  obtain ⟨w, rfl⟩ := word_eq_some hword
  rw [bind_eq_some_iff] at h
  obtain ⟨sign, digits, hsign, h⟩ := h
  cases sign with
  | none =>
    obtain ⟨ds, rfl, hn⟩ := whole_eq_some h
    refine ⟨w, ds, .inl ⟨?_, hn⟩⟩
    rw [maybe_eq_some_none hsign]
  | some u =>
    rw [bind_eq_some_iff] at h
    obtain ⟨m, after, hwhole, hpure⟩ := h
    cases hpure
    obtain ⟨ds, rfl, hn⟩ := whole_eq_some hwhole
    obtain ⟨d, rfl⟩ := mark_eq_some (maybe_eq_some_some hsign)
    exact ⟨w, ds, .inr ⟨d, rfl⟩⟩

theorem IsFixed.ne_unfinished {t : Token} (h : IsFixed t) : t ≠ .unfinished := by
  rintro rfl
  exact h

theorem takes_limit : Takes (· ≠ .unfinished) limit := by
  intro ts n rest h
  obtain ⟨w, ds, ⟨rfl, -⟩ | ⟨d, rfl⟩⟩ := limit_eq_some h
  · exact ⟨[.word w, .number ds], rfl, by simp⟩
  · exact ⟨[.word w, .mark d, .number ds], rfl, by simp⟩

theorem takes_select : Takes (· ≠ .unfinished) select := by
  rw [select_eq]
  refine (takes_unlimited.imp fun _ ↦ IsFixed.ne_unfinished).bind fun s ↦ ?_
  exact takes_limit.maybe.bind fun _ ↦ takes_pure _

theorem takes_named : Takes (· ≠ .unfinished) named := by
  have himp {α : Type} {r : Reader α} (h : Takes IsFixed r) : Takes (· ≠ .unfinished) r :=
    h.imp fun _ ↦ IsFixed.ne_unfinished
  exact (himp takes_name).bind fun _ ↦ (himp (takes_word "as")).bind fun _ ↦
    (himp (takes_mark '(')).bind fun _ ↦ takes_select.bind fun _ ↦
    (himp (takes_mark ')')).bind fun _ ↦ takes_pure _

theorem takes_front :
    Takes (· ≠ .unfinished) (maybe (do word "with"; items named)) := by
  have hcomma := (takes_mark ',').imp fun _ ↦ IsFixed.ne_unfinished
  have hwith := (takes_word "with").imp fun _ ↦ IsFixed.ne_unfinished
  exact Takes.maybe (hwith.bind fun _ ↦ takes_named.items hcomma)

theorem takes_statement : Takes (· ≠ .unfinished) statement :=
  takes_front.bind fun _ ↦ takes_select.bind fun _ ↦ takes_pure _

variable {before : List Token} {w ds : List Char}

/-- A query whose last tokens are a word and a number has that number for its limit. -/
theorem limit_of_select {ts : List Token} (hts : ts <:+ before ++ [.word w, .number ds])
    {s : Select} (h : select ts = some (s, [])) : s.limit = some (Text.natural ds : Int) := by
  rw [select_eq, bind_eq_some_iff] at h
  obtain ⟨body, mid, hbody, h⟩ := h
  rw [bind_eq_some_iff] at h
  obtain ⟨found, rest, hlimit, hpure⟩ := h
  cases hpure
  obtain ⟨taken, rfl, htaken⟩ := takes_unlimited hbody
  have hmid : mid <:+ before ++ [.word w, .number ds] := (List.suffix_append ..).trans hts
  cases found with
  | none =>
    -- the number would have been taken before the limit is looked for
    cases maybe_eq_some_none hlimit
    rcases List.eq_nil_or_concat taken with rfl | ⟨front, t, rfl⟩
    · cases hbody
    · obtain ⟨u, hu⟩ := hts
      rw [List.append_nil, List.concat_eq_append, ← List.append_assoc] at hu
      rw [show before ++ [.word w, .number ds] = before ++ [.word w] ++ [.number ds] by simp] at hu
      obtain ⟨-, hlast⟩ := List.append_inj' hu rfl
      cases hlast
      exact (htaken (.number ds) (by simp)).elim
  | some n =>
    obtain ⟨u, hu⟩ := hmid
    obtain ⟨w', ds', ⟨rfl, rfl⟩ | ⟨d, rfl⟩⟩ := limit_eq_some (maybe_eq_some_some hlimit)
    · obtain ⟨-, hlast⟩ := List.append_inj' hu rfl
      cases hlast
      rfl
    · rw [show u ++ [.word w', .mark d, .number ds'] = u ++ [.word w'] ++ [.mark d, .number ds'] by
        simp] at hu
      obtain ⟨-, hlast⟩ := List.append_inj' hu rfl
      cases hlast

theorem limit_of_statement {s : Statement}
    (h : statement (before ++ [.word w, .number ds]) = some (s, [])) :
    s.main.limit = some (Text.natural ds : Int) := by
  unfold statement at h
  rw [bind_eq_some_iff] at h
  obtain ⟨front, mid, hfront, h⟩ := h
  rw [bind_eq_some_iff] at h
  obtain ⟨main, rest, hmain, hpure⟩ := h
  cases hpure
  obtain ⟨taken, htaken, -⟩ := takes_front hfront
  exact limit_of_select ⟨taken, htaken.symm⟩ hmain

end Reader

theorem Select.length_run {s : Select} {source r : Rowset} {n : Nat} (hs : s.limit = some (n : Int))
    (h : s.run source = some r) : r.rows.length ≤ n := by
  unfold run at h
  obtain ⟨-, -, h⟩ := Option.bind_eq_some_iff.1 h
  obtain ⟨selected, -, h⟩ := Option.bind_eq_some_iff.1 h
  obtain ⟨names, -, h⟩ := Option.bind_eq_some_iff.1 h
  obtain ⟨all, -, h⟩ := Option.bind_eq_some_iff.1 h
  obtain ⟨keys, -, h⟩ := Option.bind_eq_some_iff.1 h
  cases h
  rw [List.length_map, hs]
  exact Int.ofNat_le.1 (Table.length_limited (Int.natCast_nonneg n) _)

theorem Statement.length_run {s : Statement} {t : Table} {r : Rowset} {n : Nat}
    (hs : s.main.limit = some (n : Int)) (h : s.run t = some r) : r.rows.length ≤ n := by
  simp only [run, bind, Option.bind_eq_some_iff] at h
  obtain ⟨known, -, source, -, hmain⟩ := h
  exact Select.length_run hs hmain

theorem statement_of_answer? {text : String} {t : Table} {rows : List Fields}
    (h : answer? text t = some rows) : ∃ s r, Reader.statement (Token.scan text.toList) = some (s, []) ∧
      s.run t = some r ∧ rows.length = r.rows.length := by
  unfold answer? at h
  split at h
  · simp only [bind, Option.bind_eq_some_iff] at h
    obtain ⟨s, hread, r, hrun, hrows⟩ := h
    cases hrows
    refine ⟨s, r, ?_, hrun, by simp [Rowset.toFields]⟩
    unfold Statement.read? at hread
    split at hread
    · cases hread
      assumption
    · cases hread
  · cases h

end Sql

end Footfall
