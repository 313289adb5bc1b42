import Dtj.Explorer.Traceql

/-!
# What the query language accepts

The clauses of a query as a grammar over tokens, whatever its fields are called.  The parser looks a
field up in an object literal, and so finds what the literal inherits as well; and it refuses a
semicolon wherever it stands, in a string too.

* `Equality`, `Equalities`, `Where`, `Select`, `Query`   the grammar;
* `parseTokens_ok`           the parser accepts what is a query in the fields that it finds;
* `Written`, `parse_iff`     a query with all its text;
* `Exact`                    what is promised of an input;
* `input_exact_iff`          **it holds but for semicolons in strings and inherited names**.
-/

namespace Dtj.Explorer.Traceql
open Checked
open Sdk.TypeScript (Str units)

/-! ## the grammar -/

inductive Value : Tok → Str → Prop
  | string (value : Str) : Value (.string value) value
  | severity {value : Str} (h : value ∈ SEVERITIES) : Value (.ident value) value

section
variable (key : Str → Option Str)

/-- an equality of a field, with the key of the filter and its value -/
inductive Equality : List Tok → Str × Str → Prop
  | mk {name k value : Str} {t : Tok} (hkey : key name = some k) (ht : Value t value)
      (hlength : value.length ≤ FILTER_MAX_CHARS) (hseverity : k = units "severity" → value ∈ SEVERITIES) :
      Equality [.ident name, .op (units "="), t] (k, value)

inductive Equalities : List Tok → Filters → Prop
  | one {ts : List Tok} {f : Str × Str} (h : Equality key ts f) : Equalities ts [f]
  | and {ts rest : List Tok} {f : Str × Str} {fs : Filters} (h : Equality key ts f)
      (hrest : Equalities rest fs) : Equalities (ts ++ .kw .AND :: rest) (f :: fs)

inductive Where : List Tok → Filters → Prop
  | none : Where [] []
  | some {ts : List Tok} {fs : Filters} (h : Equalities key ts fs) (hnodup : (fs.map Prod.fst).Nodup) :
      Where (.kw .WHERE :: ts) fs

inductive Columns : List Tok → Prop
  | nil : Columns []
  | cons {name : Str} {rest : List Tok} (hname : name ∈ SELECT_FIELDS) (h : Columns rest) :
      Columns (.comma :: .ident name :: rest)

inductive Select : List Tok → Prop
  | none : Select []
  | star : Select [.kw .SELECT, .star]
  | fields {name : Str} {rest : List Tok} (hname : name ∈ SELECT_FIELDS) (h : Columns rest) :
      Select (.kw .SELECT :: .ident name :: rest)

inductive Query : List Tok → Filters → Nat → Prop
  | mk {ws ss : List Tok} {filters : Filters} {limit : Nat} (hwhere : Where key ws filters) (hselect : Select ss)
      (hmin : 1 ≤ limit) (hmax : limit ≤ EVENTS_PAGE_MAX) :
      Query (.kw .FROM :: .kw .EVENTS :: (ws ++ (ss ++ [.kw .LIMIT, .number limit]))) filters limit

end

/-! ## the clauses -/

theorem fieldName_ok {t : Tok} {name : Str} :
    fieldName t = .ok name ↔ t = .ident name ∧ name ≠ units "payload" := by
  cases t with
  | ident n =>
    unfold fieldName
    dsimp only
    split_ifs with h
    · constructor
      · intro h
        cases h
      · rintro ⟨heq, hne⟩
        cases heq
        exact absurd h hne
    · constructor
      · intro hn
        cases hn
        exact ⟨rfl, h⟩
      · rintro ⟨heq, -⟩
        cases heq
        rfl
  | _ => simp [fieldName, fail, Checked.fail]

theorem filterKey_ok {name k : Str} : filterKey name = .ok k ↔ filterKeyOf name = some k := by
  unfold filterKey
  cases filterKeyOf name <;> simp [fail, Checked.fail]

theorem comparison_ok {t : Tok} {u : Unit} : comparison t = .ok u ↔ t = .op (units "=") := by
  cases t with
  | kw value => cases value <;> simp [comparison, fail, Checked.fail]
  | op value =>
    unfold comparison
    dsimp only
    split_ifs with h <;> simp [h, fail, Checked.fail]
  | _ => simp [comparison, fail, Checked.fail]

theorem valueOf_ok {t : Tok} {value : Str} : valueOf t = .ok value ↔ Value t value := by
  constructor
  · intro h
    cases t with
    | string v =>
      cases h
      exact .string value
    | ident v =>
      unfold valueOf at h
      dsimp only at h
      split_ifs at h with hv
      · cases h
        exact .severity hv
      · cases h
    | _ => cases h
  · intro h
    cases h with
    | string value => rfl
    | severity h => exact if_pos h

theorem payload_unknown {name k : Str} (h : filterKeyOf name = some k) : name ≠ units "payload" := by
  rintro rfl
  have hnone : filterKeyOf (units "payload") = none := by decide +kernel
  rw [hnone] at h
  cases h

@[simp] theorem peek_cons (t : Tok) (ts : List Tok) : peek (t :: ts) = t := rfl

theorem peek_eq {ts : List Tok} {t : Tok} (h : peek ts = t) (ht : t ≠ .eof) : ts = t :: ts.tail := by
  cases ts with
  | nil => exact absurd h.symm ht
  | cons u rest =>
    cases h
    rfl

/-- **one round of the loop reads one equality** -/
theorem predicate_ok {filters filters' : Filters} {ts rest : List Tok} :
    predicate filters ts = .ok (filters', rest) ↔ ∃ pre f, ts = pre ++ rest ∧ Equality filterKeyOf pre f
      ∧ f.1 ∉ filters.map Prod.fst ∧ filters' = filters ++ [f] := by
  constructor
  · intro h
    unfold predicate at h
    split_ifs at h with hor hnot
    · cases h
    · cases h
    · obtain ⟨name, hname, h⟩ := bind_eq_ok.mp h
      obtain ⟨k, hkey, h⟩ := bind_eq_ok.mp h
      obtain ⟨u, hop, h⟩ := bind_eq_ok.mp h
      obtain ⟨value, hvalue, h⟩ := bind_eq_ok.mp h
      dsimp only at h
      split_ifs at h with hlength hseverity hseen
      · cases h
      · cases h
      · cases h
      · cases h
        have h1 := peek_eq (fieldName_ok.mp hname).1 Tok.noConfusion
        have h2 := peek_eq (comparison_ok.mp hop) Tok.noConfusion
        have hval := valueOf_ok.mp hvalue
        have hne : peek ts.tail.tail ≠ .eof := by
          intro heof
          rw [heof] at hval
          cases hval
        have h3 := peek_eq rfl hne
        refine ⟨[.ident name, .op (units "="), peek ts.tail.tail], (k, value), ?_, ?_, hseen, rfl⟩
        · rw [List.cons_append, List.cons_append, List.cons_append, List.nil_append, ← h3, ← h2, ← h1]
        · refine .mk (filterKey_ok.mp hkey) hval (not_lt.mp hlength) ?_
          intro hk
          by_contra hv
          exact hseverity ⟨hk, hv⟩
  · rintro ⟨pre, f, rfl, hf, hseen, rfl⟩
    cases hf with
    | @mk name k value t hkey ht hlength hseverity =>
      have hk := filterKey_ok.mpr hkey
      have hname := fieldName_ok.mpr ⟨rfl, payload_unknown hkey⟩
      have hop := (@comparison_ok _ ()).mpr rfl
      have hv := valueOf_ok.mpr ht
      unfold predicate
      simp only [List.cons_append, List.nil_append, peek, List.tail_cons, reduceCtorEq, if_false, hname, hk, hop, hv,
        ok_bind, if_neg (not_lt.mpr hlength), if_neg hseen]
      rw [if_neg]
      rintro ⟨hk', hno⟩
      exact hno (hseverity hk')

/-- the loop reads equalities as long as AND follows -/
theorem predicates_sound {n : Nat} {filters filters' : Filters} {ts rest : List Tok}
    (hnodup : (filters.map Prod.fst).Nodup) (h : predicates n filters ts = .ok (filters', rest)) :
    ∃ pre fs, ts = pre ++ rest ∧ Equalities filterKeyOf pre fs ∧ filters' = filters ++ fs
      ∧ (filters'.map Prod.fst).Nodup := by
  induction n generalizing filters ts with
  | zero => cases h
  | succ n ih =>
    obtain ⟨⟨filters₁, ts₁⟩, hfirst, h⟩ := bind_eq_ok.mp h
    obtain ⟨pre, f, rfl, hf, hseen, rfl⟩ := predicate_ok.mp hfirst
    have hnodup₁ : ((filters ++ [f]).map Prod.fst).Nodup := by
      rw [List.map_append, List.nodup_append]
      refine ⟨hnodup, by simp, ?_⟩
      intro a ha b hb hab
      simp only [List.map_cons, List.map_nil, List.mem_singleton] at hb
      exact hseen (hb ▸ hab ▸ ha)
    dsimp only at h
    split_ifs at h with hand
    · obtain ⟨pre', fs, hts, hfs, rfl, hall⟩ := ih hnodup₁ h
      have hhead := peek_eq hand Tok.noConfusion
      refine ⟨pre ++ .kw .AND :: pre', f :: fs, ?_, .and hf hfs, ?_, hall⟩
      · rw [hhead, hts, List.append_assoc, List.cons_append]
      · rw [List.append_assoc, List.singleton_append]
    · cases h
      exact ⟨pre, [f], rfl, .one hf, rfl, hnodup₁⟩

theorem predicates_complete {n : Nat} {filters fs : Filters} {pre rest : List Tok} (hn : pre.length ≤ n)
    (h : Equalities filterKeyOf pre fs) (hnodup : ((filters ++ fs).map Prod.fst).Nodup)
    (hrest : peek rest ≠ .kw .AND) :
    predicates n filters (pre ++ rest) = .ok (filters ++ fs, rest) := by
  induction h generalizing n filters with
  | @one ts f hf =>
    have hseen : f.1 ∉ filters.map Prod.fst := by
      rw [List.map_append, List.nodup_append] at hnodup
      intro hmem
      exact hnodup.2.2 _ hmem f.1 (by simp) rfl
    cases n with
    | zero =>
      cases hf
      cases hn
    | succ n =>
      rw [predicates, predicate_ok.mpr ⟨ts, f, rfl, hf, hseen, rfl⟩, ok_bind]
      exact if_neg hrest
  | @and ts more f fs hf hfs ih =>
    have hseen : f.1 ∉ filters.map Prod.fst := by
      rw [List.map_append, List.nodup_append] at hnodup
      intro hmem
      exact hnodup.2.2 _ hmem f.1 (by simp) rfl
    cases n with
    | zero =>
      cases hf
      cases hn
    | succ n =>
      have hsplit : ts ++ .kw .AND :: more ++ rest = ts ++ (.kw .AND :: (more ++ rest)) := by
        rw [List.append_assoc, List.cons_append]
      rw [List.length_append, List.length_cons] at hn
      rw [hsplit, predicates, predicate_ok.mpr ⟨ts, f, rfl, hf, hseen, rfl⟩, ok_bind]
      dsimp only
      rw [peek_cons, if_pos rfl, List.tail_cons, ih (by omega) (by simpa using hnodup), List.append_assoc,
        List.singleton_append]

/-- what may follow WHERE and its equalities -/
def Follows (ts : List Tok) : Prop := peek ts = .kw .SELECT ∨ peek ts = .kw .LIMIT

theorem whereClause_sound {ts rest : List Tok} {filters : Filters}
    (h : whereClause ts = .ok (filters, rest)) : ∃ pre, ts = pre ++ rest ∧ Where filterKeyOf pre filters := by
  unfold whereClause at h
  split_ifs at h with hwhere
  · have hnil : (([] : Filters).map Prod.fst).Nodup := List.nodup_nil
    obtain ⟨pre, fs, hts, hfs, rfl, hnodup⟩ := predicates_sound hnil h
    have hhead := peek_eq hwhere Tok.noConfusion
    refine ⟨.kw .WHERE :: pre, ?_, .some hfs hnodup⟩
    rw [hhead, hts, List.cons_append]
  · cases h
    exact ⟨[], rfl, .none⟩

theorem whereClause_complete {pre rest : List Tok} {filters : Filters} (h : Where filterKeyOf pre filters)
    (hrest : Follows rest) : whereClause (pre ++ rest) = .ok (filters, rest) := by
  unfold whereClause
  cases h with
  | none =>
    rw [List.nil_append, if_neg]
    intro hwhere
    cases hrest with
    | inl h => cases hwhere.symm.trans h
    | inr h => cases hwhere.symm.trans h
  | @some ts fs hfs hnodup =>
    rw [List.cons_append, peek_cons, if_pos rfl, List.tail_cons]
    refine predicates_complete ?_ hfs hnodup ?_
    · rw [List.length_cons, List.length_append]
      omega
    · intro hand
      cases hrest with
      | inl h => cases hand.symm.trans h
      | inr h => cases hand.symm.trans h

theorem isColumn_iff {t : Tok} : isColumn t = true ↔ ∃ name ∈ SELECT_FIELDS, t = .ident name := by
  cases t <;> simp [isColumn]

theorem columns_sound {ts rest : List Tok} (h : columns ts = .ok rest) :
    ∃ pre, ts = pre ++ rest ∧ Columns pre := by
  induction ts using columns.induct with
  | case1 col more hcol ih =>
    rw [columns, if_pos hcol] at h
    obtain ⟨pre, rfl, hpre⟩ := ih h
    obtain ⟨name, hname, rfl⟩ := isColumn_iff.mp hcol
    exact ⟨.comma :: .ident name :: pre, rfl, .cons hname hpre⟩
  | case2 col more hcol =>
    rw [columns, if_neg hcol] at h
    cases h
  | case3 => cases h
  | case4 ts hcons hsingle =>
    rw [columns] at h
    · cases h
      exact ⟨[], rfl, .nil⟩
    · exact hcons
    · exact hsingle

theorem columns_complete {pre rest : List Tok} (h : Columns pre) (hrest : peek rest ≠ .comma) :
    columns (pre ++ rest) = .ok rest := by
  induction h with
  | nil =>
    rw [List.nil_append, columns]
    · intro col more heq
      rw [heq] at hrest
      exact hrest rfl
    · intro heq
      rw [heq] at hrest
      exact hrest rfl
  | @cons name more hname _ ih =>
    rw [List.cons_append, List.cons_append, columns, if_pos (isColumn_iff.mpr ⟨name, hname, rfl⟩)]
    exact ih

theorem selectClause_sound {ts rest : List Tok} (h : selectClause ts = .ok rest) :
    ∃ pre, ts = pre ++ rest ∧ Select pre := by
  unfold selectClause at h
  by_cases hselect : peek ts = .kw .SELECT
  · rw [if_pos hselect] at h
    have hhead := peek_eq hselect Tok.noConfusion
    dsimp only at h
    split_ifs at h with haggregate hstar hcolumn
    · cases h
    · cases h
      have hfirst := peek_eq hstar Tok.noConfusion
      refine ⟨[.kw .SELECT, .star], ?_, .star⟩
      rw [List.cons_append, List.cons_append, List.nil_append, ← hfirst, ← hhead]
    · obtain ⟨name, hname, hident⟩ := isColumn_iff.mp hcolumn
      have hfirst := peek_eq hident Tok.noConfusion
      obtain ⟨pre, hts, hpre⟩ := columns_sound h
      refine ⟨.kw .SELECT :: .ident name :: pre, ?_, .fields hname hpre⟩
      rw [List.cons_append, List.cons_append, ← hts, ← hfirst, ← hhead]
    · cases h
  · rw [if_neg hselect] at h
    cases h
    exact ⟨[], rfl, .none⟩

theorem selectClause_complete {pre rest : List Tok} (h : Select pre) (hrest : peek rest = .kw .LIMIT) :
    selectClause (pre ++ rest) = .ok rest := by
  unfold selectClause
  cases h with
  | none =>
    rw [List.nil_append, if_neg]
    rw [hrest]
    decide
  | star => rfl
  | @fields name more hname hmore =>
    rw [List.cons_append, List.cons_append, peek_cons, if_pos rfl]
    have hcolumn : isColumn (.ident name) = true := isColumn_iff.mpr ⟨name, hname, rfl⟩
    have hcomma : peek rest ≠ .comma := by
      rw [hrest]
      exact Tok.noConfusion
    simp only [List.tail_cons, peek_cons, hcolumn, if_true, columns_complete hmore hcomma]
    rfl

theorem limitClause_ok {ts rest : List Tok} {limit : Nat} : limitClause ts = .ok (limit, rest)
    ↔ ts = .kw .LIMIT :: .number limit :: rest ∧ 1 ≤ limit ∧ limit ≤ EVENTS_PAGE_MAX := by
  constructor
  · intro h
    unfold limitClause at h
    split_ifs at h with hlimit
    · have hhead := peek_eq hlimit Tok.noConfusion
      cases hnumber : peek ts.tail with
      | number n =>
        have hfirst := peek_eq hnumber Tok.noConfusion
        rw [hnumber] at h
        dsimp only at h
        split_ifs at h with hrange
        · cases h
        · cases h
          refine ⟨?_, by omega, by omega⟩
          rw [← hfirst, ← hhead]
      | _ =>
        rw [hnumber] at h
        cases h
    · cases h
  · rintro ⟨rfl, hmin, hmax⟩
    unfold limitClause
    rw [peek_cons, if_pos rfl]
    dsimp only [List.tail_cons, peek]
    rw [if_neg (by omega)]

theorem expectKw_ok {kw : Keyword} {ts rest : List Tok} :
    expectKw kw ts = .ok rest ↔ ts = .kw kw :: rest := by
  unfold expectKw
  split_ifs with h
  · rw [peek_eq h Tok.noConfusion]
    simp
  · constructor
    · intro hno
      cases hno
    · rintro rfl
      exact absurd rfl h

theorem source_ok {ts rest : List Tok} : source ts = .ok rest ↔ ts = .kw .EVENTS :: rest := by
  unfold source
  split_ifs with hgraph hevents
  · constructor
    · intro hno
      cases hno
    · rintro rfl
      cases hgraph
  · rw [peek_eq hevents Tok.noConfusion]
    simp
  · constructor
    · intro hno
      cases hno
    · rintro rfl
      exact absurd rfl hevents

theorem before_eof {ts pre rest : List Tok} {t : Tok} (ht : t ≠ .eof) (hts : .eof ∉ ts)
    (h : ts ++ [.eof] = pre ++ t :: rest) (hrest : peek rest = .eof) : ts = pre ++ [t] := by
  cases rest with
  | nil =>
    obtain ⟨-, hlast⟩ := List.append_inj' h rfl
    cases hlast
    exact absurd rfl ht
  | cons u more =>
    cases hrest
    have hsplit : ts ++ [.eof] = (pre ++ [t]) ++ .eof :: more := by
      rw [h, List.append_assoc, List.singleton_append]
    obtain ⟨as, hpre, has⟩ | ⟨bs, hbs, hmore⟩ := List.append_eq_append_iff.mp hsplit
    · cases as with
      | nil => rw [hpre, List.append_nil]
      | cons a as => simp at has
    · cases bs with
      | nil => rw [hbs, List.append_nil]
      | cons b bs =>
        obtain ⟨rfl, -⟩ := List.cons.inj hmore
        rw [hbs] at hts
        exact absurd (List.mem_append_right _ List.mem_cons_self) hts

/-- **the parser accepts what is a query in the fields that it finds** -/
theorem parseTokens_ok {ts : List Tok} (hts : .eof ∉ ts) {filters : Filters} {limit : Nat} :
    parseTokens (ts ++ [.eof]) = .ok ⟨filters, limit⟩ ↔ Query filterKeyOf ts filters limit := by
  constructor
  · intro h
    obtain ⟨ts₁, hfrom, h⟩ := bind_eq_ok.mp h
    obtain ⟨ts₂, hsource, h⟩ := bind_eq_ok.mp h
    obtain ⟨⟨filters', ts₃⟩, hwhere, h⟩ := bind_eq_ok.mp h
    dsimp only at h
    split_ifs at h with hgroup horder
    · cases h
    · cases h
    · obtain ⟨ts₄, hselect, h⟩ := bind_eq_ok.mp h
      obtain ⟨⟨limit', ts₅⟩, hlimit, h⟩ := bind_eq_ok.mp h
      dsimp only at h
      split_ifs at h with hend
      · cases h
      · cases h
        obtain ⟨ws, rfl, hws⟩ := whereClause_sound hwhere
        obtain ⟨ss, rfl, hss⟩ := selectClause_sound hselect
        obtain ⟨rfl, hmin, hmax⟩ := limitClause_ok.mp hlimit
        have hall := expectKw_ok.mp hfrom
        rw [source_ok.mp hsource] at hall
        have hwhole : ts ++ [.eof]
            = (.kw .FROM :: .kw .EVENTS :: (ws ++ (ss ++ [.kw .LIMIT]))) ++ .number limit :: ts₅ := by
          simpa using hall
        rw [before_eof Tok.noConfusion hts hwhole (not_not.mp hend)]
        simpa using Query.mk hws hss hmin hmax
  · rintro ⟨hwhere, hselect, hmin, hmax⟩
    rename_i ws ss
    have hlimit : limitClause [.kw .LIMIT, .number limit, .eof] = .ok (limit, [.eof]) :=
      limitClause_ok.mpr ⟨rfl, hmin, hmax⟩
    have hsel : selectClause (ss ++ [.kw .LIMIT, .number limit, .eof]) = .ok [.kw .LIMIT, .number limit, .eof] :=
      selectClause_complete hselect rfl
    have hfollows : Follows (ss ++ [.kw .LIMIT, .number limit, .eof]) := by
      cases hselect with
      | none => exact .inr rfl
      | star => exact .inl rfl
      | fields _ _ => exact .inl rfl
    have hwh := whereClause_complete hwhere hfollows
    have hshape : .kw .FROM :: .kw .EVENTS :: (ws ++ (ss ++ [.kw .LIMIT, .number limit])) ++ [.eof]
        = .kw .FROM :: .kw .EVENTS :: (ws ++ (ss ++ [.kw .LIMIT, .number limit, .eof])) := by simp
    rw [hshape, parseTokens, expectKw_ok.mpr rfl, ok_bind, source_ok.mpr rfl, ok_bind, hwh, ok_bind]
    dsimp only
    have hgroup : peek (ss ++ [.kw .LIMIT, .number limit, .eof]) ≠ .kw .GROUP := by
      intro hg
      cases hfollows with
      | inl h => cases hg.symm.trans h
      | inr h => cases hg.symm.trans h
    have horder : peek (ss ++ [.kw .LIMIT, .number limit, .eof]) ≠ .kw .ORDER := by
      intro ho
      cases hfollows with
      | inl h => cases ho.symm.trans h
      | inr h => cases ho.symm.trans h
    rw [if_neg hgroup, if_neg horder, hsel, ok_bind, hlimit, ok_bind]
    rfl

/-! ## the whole query -/

/-- a query in the fields of `key`, with white space around it -/
structure Written (key : Str → Option Str) (input : Str) (filters : Filters) (limit : Nat) : Prop where
  length : (trim input).length ≤ QUERY_TEXT_MAX_CHARS
  no_nul : 0 ∉ trim input
  tokens : ∃ ts, Lexes (trim input) ts ∧ Query key ts filters limit

theorem Lexes.no_eof {s : Str} {ts : List Tok} (h : Lexes s ts) : .eof ∉ ts := by
  induction h with
  | nil => exact List.not_mem_nil
  | space _ _ ih => exact ih
  | @token text rest t more hspell _ _ ih =>
    rw [List.mem_cons, not_or]
    refine ⟨?_, ih⟩
    rintro rfl
    generalize ht : Tok.eof = t at hspell
    cases hspell with
    | @word c letters hc hletters =>
      have hword := isWord_word (c :: letters)
      rw [← ht] at hword
      cases hword
    | _ => cases ht

/-- **what the parser accepts** -/
theorem parse_iff {input : Str} {filters : Filters} {limit : Nat} :
    parseTraceqlSubset input = .ok ⟨filters, limit⟩
      ↔ 0x3B ∉ trim input ∧ Written filterKeyOf input filters limit := by
  unfold parseTraceqlSubset
  constructor
  · intro h
    obtain ⟨found, htokens, h⟩ := bind_eq_ok.mp h
    obtain ⟨-, hadmitted, ts, hts, rfl⟩ := tokenize_ok.mp htokens
    exact ⟨hadmitted.one_statement, hadmitted.length, hadmitted.no_nul, ts, hts,
      (parseTokens_ok hts.no_eof).mp h⟩
  · rintro ⟨hstatement, hlength, hnul, ts, hts, hquery⟩
    have hne : trim input ≠ [] := by
      intro hnil
      rw [hnil] at hts
      have hempty := hts.unique .nil
      rw [hempty] at hquery
      cases hquery
    have htokens := tokenize_ok.mpr ⟨hne, ⟨hlength, hnul, hstatement⟩, ts, hts, rfl⟩
    rw [htokens, ok_bind]
    exact (parseTokens_ok hts.no_eof).mpr hquery

/-! ## the end of the loops -/

theorem predicate_returns (filters : Filters) (ts : List Tok) : Returns (predicate filters ts) := by
  unfold predicate
  refine safe_ite (fun _ => trivial) fun _ => safe_ite (fun _ => trivial) fun _ => ?_
  refine Returns.bind ?_ fun name _ => Returns.bind ?_ fun k _ => Returns.bind ?_ fun u _ =>
    Returns.bind ?_ fun value _ => ?_
  · cases peek ts with
    | ident n => exact safe_ite (fun _ => trivial) fun _ => trivial
    | _ => trivial
  · unfold filterKey
    cases filterKeyOf name <;> trivial
  · cases peek ts.tail with
    | kw value => cases value <;> trivial
    | op value => exact safe_ite (fun _ => trivial) fun _ => trivial
    | _ => trivial
  · cases peek ts.tail.tail with
    | ident n => exact safe_ite (fun _ => trivial) fun _ => trivial
    | _ => trivial
  · exact safe_ite (fun _ => trivial) fun _ => safe_ite (fun _ => trivial) fun _ =>
      safe_ite (fun _ => trivial) fun _ => trivial

theorem predicates_returns {n : Nat} {ts : List Tok} (hn : ts.length < n) (filters : Filters) :
    Returns (predicates n filters ts) := by
  induction n generalizing filters ts with
  | zero => cases hn
  | succ n ih =>
    refine (predicate_returns filters ts).bind ?_
    rintro ⟨filters', rest⟩ hround
    obtain ⟨pre, f, rfl, hf, -, -⟩ := predicate_ok.mp hround
    have hpre : pre.length = 3 := by
      cases hf
      rfl
    rw [List.length_append] at hn
    refine safe_ite (fun _ => ih ?_ _) fun _ => trivial
    rw [List.length_tail]
    omega

theorem columns_returns (ts : List Tok) : Returns (columns ts) := by
  induction ts using columns.induct with
  | case1 col more hcol ih =>
    rw [columns, if_pos hcol]
    exact ih
  | case2 col more hcol =>
    rw [columns, if_neg hcol]
    trivial
  | case3 => trivial
  | case4 ts hcons hsingle =>
    rw [columns]
    · trivial
    · exact hcons
    · exact hsingle

theorem parseTokens_returns (ts : List Tok) : Returns (parseTokens ts) := by
  unfold parseTokens
  refine Returns.bind (safe_ite (fun _ => trivial) fun _ => trivial) fun ts₁ _ => ?_
  refine Returns.bind (safe_ite (fun _ => trivial) fun _ => safe_ite (fun _ => trivial) fun _ => trivial)
    fun ts₂ _ => ?_
  refine Returns.bind (safe_ite (fun h => ?_) fun _ => trivial) fun found _ => ?_
  · refine predicates_returns ?_ []
    rw [peek_eq h Tok.noConfusion, List.tail_cons, List.length_cons]
    omega
  refine safe_ite (fun _ => trivial) fun _ => safe_ite (fun _ => trivial) fun _ => ?_
  refine Returns.bind (safe_ite (fun _ => ?_) fun _ => trivial) fun ts₄ _ => ?_
  · exact safe_ite (fun _ => trivial) fun _ => safe_ite (fun _ => trivial) fun _ =>
      safe_ite (fun _ => columns_returns _) fun _ => trivial
  refine Returns.bind (safe_ite (fun _ => ?_) fun _ => trivial) fun found _ => ?_
  · cases peek ts₄.tail with
    | number n => exact safe_ite (fun _ => trivial) fun _ => trivial
    | _ => trivial
  · exact safe_ite (fun _ => trivial) fun _ => trivial

theorem parse_returns (input : Str) : Returns (parseTraceqlSubset input) :=
  (tokenize_returns input).bind fun ts _ => parseTokens_returns ts

/-! ## the five fields -/

/-- the key of a field that the language has -/
def ownKey (name : Str) : Option Str := FIELD_TO_FILTER.lookup name

theorem ownKey_found {name k : Str} (h : ownKey name = some k) : filterKeyOf name = some k := by
  rw [filterKeyOf, List.lookup_append, show FIELD_TO_FILTER.lookup name = some k from h, Option.some_or]

theorem filterKeyOf_own {name k : Str} (h : filterKeyOf name = some k)
    (hown : k ∉ inherited.map Prod.snd) : ownKey name = some k := by
  rw [filterKeyOf, List.lookup_append] at h
  unfold ownKey
  cases hfive : FIELD_TO_FILTER.lookup name with
  | some k' => rwa [hfive, Option.some_or] at h
  | none =>
    rw [hfive, Option.none_or] at h
    obtain ⟨before, after, hsplit, -⟩ := List.lookup_eq_some_iff.mp h
    refine absurd (List.mem_map.mpr ⟨(name, k), ?_, rfl⟩) hown
    rw [hsplit]
    exact List.mem_append_right before List.mem_cons_self

section
variable {key key' : Str → Option Str}

theorem Equalities.imp {ts : List Tok} {fs : Filters} (h : Equalities key ts fs)
    (hkey : ∀ name k, k ∈ fs.map Prod.fst → key name = some k → key' name = some k) :
    Equalities key' ts fs := by
  induction h with
  | one hf =>
    cases hf with
    | mk hk ht hlength hseverity =>
      exact .one (.mk (hkey _ _ (by simp) hk) ht hlength hseverity)
  | and hf _ ih =>
    cases hf with
    | mk hk ht hlength hseverity =>
      refine .and (.mk (hkey _ _ (by simp) hk) ht hlength hseverity) (ih ?_)
      intro name k hmem
      exact hkey name k (List.mem_cons_of_mem _ hmem)

theorem Written.imp {input : Str} {filters : Filters} {limit : Nat} (h : Written key input filters limit)
    (hkey : ∀ name k, k ∈ filters.map Prod.fst → key name = some k → key' name = some k) :
    Written key' input filters limit := by
  obtain ⟨hlength, hnul, ts, hts, hwhere, hselect, hmin, hmax⟩ := h
  refine ⟨hlength, hnul, _, hts, .mk ?_ hselect hmin hmax⟩
  cases hwhere with
  | none => exact .none
  | some hfs hnodup => exact .some (hfs.imp hkey) hnodup

theorem Equalities.keys {ts : List Tok} {fs : Filters} (h : Equalities key ts fs) {k : Str}
    (hk : k ∈ fs.map Prod.fst) : ∃ name, key name = some k := by
  induction h with
  | one hf =>
    cases hf with
    | @mk name k' v t hkey _ _ _ =>
      rw [List.map_singleton, List.mem_singleton] at hk
      exact ⟨name, hkey.trans (congrArg some hk.symm)⟩
  | and hf _ ih =>
    cases hf with
    | @mk name k' v t hkey _ _ _ =>
      rw [List.map_cons, List.mem_cons] at hk
      cases hk with
      | inl heq => exact ⟨name, hkey.trans (congrArg some heq.symm)⟩
      | inr hmem => exact ih hmem

/-- the keys of a query are keys of its fields -/
theorem Written.keys {input : Str} {filters : Filters} {limit : Nat} (h : Written key input filters limit)
    {k : Str} (hk : k ∈ filters.map Prod.fst) : ∃ name, key name = some k := by
  obtain ⟨-, -, ts, -, hwhere, -, -, -⟩ := h
  cases hwhere with
  | none => cases hk
  | some hfs _ => exact hfs.keys hk

end

/-! ## what is promised -/

/-- an end without an exception, success for a query in the five fields and for nothing else, and then
what the query says, under no other key -/
structure Exact (input : Str) : Prop where
  returns : Returns (parseTraceqlSubset input)
  accepts : (∃ found, parseTraceqlSubset input = .ok found) ↔ ∃ filters limit, Written ownKey input filters limit
  result : ∀ found, parseTraceqlSubset input = .ok found → Written ownKey input found.filters found.limit
  keys : ∀ found, parseTraceqlSubset input = .ok found →
    ∀ k ∈ found.filters.map Prod.fst, k ∈ FIELD_TO_FILTER.map Prod.snd

/-- a query with a semicolon, which then stands in a string -/
def Separated (input : Str) : Prop :=
  0x3B ∈ trim input ∧ ∃ filters limit, Written ownKey input filters limit

/-- a query, but for a field that is an inherited name -/
def Inherits (input : Str) : Prop :=
  0x3B ∉ trim input ∧ ∃ filters limit, Written filterKeyOf input filters limit ∧
    ∃ k ∈ filters.map Prod.fst, k ∈ inherited.map Prod.snd

theorem ownKey_mem {name k : Str} (h : ownKey name = some k) : k ∈ FIELD_TO_FILTER.map Prod.snd := by
  obtain ⟨before, after, hsplit, -⟩ := List.lookup_eq_some_iff.mp h
  rw [hsplit]
  exact List.mem_map.mpr ⟨(name, k), List.mem_append_right before List.mem_cons_self, rfl⟩

theorem inherited_not_own : ∀ k ∈ inherited.map Prod.snd, k ∉ FIELD_TO_FILTER.map Prod.snd := by
  decide +kernel

/-- **the parser keeps to the five fields, but for a semicolon in a string and an inherited name** -/
theorem input_exact_iff (input : Str) : Exact input ↔ ¬ Separated input ∧ ¬ Inherits input := by
  constructor
  · intro hexact
    constructor
    · rintro ⟨hstatement, hwritten⟩
      obtain ⟨found, hparse⟩ := hexact.accepts.mpr hwritten
      exact (parse_iff.mp hparse).1 hstatement
    · rintro ⟨hstatement, filters, limit, hwritten, k, hk, hinherited⟩
      have hparse := parse_iff.mpr ⟨hstatement, hwritten⟩
      exact inherited_not_own k hinherited (hexact.keys _ hparse k hk)
  · rintro ⟨hseparated, hinherits⟩
    have hresult : ∀ found, parseTraceqlSubset input = .ok found →
        Written ownKey input found.filters found.limit := by
      intro found hparse
      obtain ⟨hstatement, hwritten⟩ := parse_iff.mp hparse
      refine hwritten.imp fun name k hk hname => filterKeyOf_own hname ?_
      intro hinherited
      exact hinherits ⟨hstatement, _, _, hwritten, k, hk, hinherited⟩
    refine ⟨parse_returns input, ⟨?_, ?_⟩, hresult, ?_⟩
    · rintro ⟨found, hparse⟩
      exact ⟨_, _, hresult found hparse⟩
    · rintro ⟨filters, limit, hwritten⟩
      have hstatement : 0x3B ∉ trim input := fun h => hseparated ⟨h, filters, limit, hwritten⟩
      have hfound := hwritten.imp fun _ _ _ => ownKey_found
      exact ⟨_, parse_iff.mpr ⟨hstatement, hfound⟩⟩
    · intro found hparse k hk
      obtain ⟨name, hname⟩ := (hresult found hparse).keys hk
      exact ownKey_mem hname

/-- a field that every object has -/
theorem constructor_accepted :
    parseTraceqlSubset (units "FROM events WHERE constructor = 'x' LIMIT 1")
        = .ok ⟨[(units "function Object() \x7b [native code] \x7d", units "x")], 1⟩
      ∧ ¬ Exact (units "FROM events WHERE constructor = 'x' LIMIT 1") := by
  have hparse : parseTraceqlSubset (units "FROM events WHERE constructor = 'x' LIMIT 1")
      = .ok ⟨[(units "function Object() \x7b [native code] \x7d", units "x")], 1⟩ := by
    decide +kernel
  refine ⟨hparse, ?_⟩
  intro hexact
  have hkeys := hexact.keys _ hparse (units "function Object() \x7b [native code] \x7d") (by decide +kernel)
  revert hkeys
  decide +kernel

end Dtj.Explorer.Traceql
