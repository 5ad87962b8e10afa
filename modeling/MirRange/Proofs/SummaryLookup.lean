import Mathlib.Data.List.Induction
import Mathlib.Data.List.Nodup
import MirRange.Proofs.Outcome
import MirRange.Proofs.RoundTrip

/-!
# Summaries by name

The summaries of a report are kept under the names of their functions, and functions are looked up
under their names, too.  Names need not be distinct.  Of several functions with one name the look-up
takes the first, while a summary is replaced by a later one of that name.  So the two agree as long
as names are distinct, and a summary can be lost, or be that of another function, where they are
not.

* `Collects`: a list of entries brought together by name; `Collects.put`, `collects_foldl`: putting
  one entry, and putting them all.
* `Function.entry?`: what a function adds to the summaries; `Crate.collects_entries`: nothing else
  is in them.
* `Crate.mem_summaries_iff`: the summary under a name is that of the last analysed function.
* `CrateReport.Summarises`: each analysed function has a summary, and each summary is that of the
  function found under its name; `Crate.summaries_agree_iff`: when this is so.
-/

namespace MirRange

/-! ### Entries brought together -/

section

variable {es acc : List (String × Summary)} {name key : String} {s v : Summary}

/-- An entry is the last one with its name. -/
def LastEntry (es : List (String × Summary)) (name : String) (s : Summary) : Prop :=
  ∃ before after, es = before ++ (name, s) :: after ∧ name ∉ after.map Prod.fst

/-- After one more entry, it is the last one with its name, and for other names nothing changes. -/
theorem lastEntry_concat_iff :
    LastEntry (es ++ [(key, v)]) name s ↔
      (name = key ∧ s = v) ∨ (name ≠ key ∧ LastEntry es name s) := by
  constructor
  · intro h
    obtain ⟨before, after, hes, hafter⟩ := h
    rcases List.eq_nil_or_concat after with rfl | ⟨rest, entry, rfl⟩
    · have hlast : (key, v) = (name, s) := by simpa using (List.append_inj_right' hes rfl)
      cases hlast
      exact .inl ⟨rfl, rfl⟩
    · rw [List.concat_eq_append, ← List.cons_append, ← List.append_assoc] at hes
      obtain ⟨hes', hentry⟩ := List.append_inj' hes rfl
      obtain rfl : (key, v) = entry := List.singleton_inj.1 hentry
      rw [List.concat_eq_append, List.map_append, List.mem_append, not_or] at hafter
      exact .inr ⟨fun hname => hafter.2 (by simp [hname]), before, rest, hes', hafter.1⟩
  · intro h
    rcases h with ⟨rfl, rfl⟩ | ⟨hne, before, after, rfl, hafter⟩
    · exact ⟨es, [], rfl, List.not_mem_nil⟩
    · refine ⟨before, after ++ [(key, v)], by simp, ?_⟩
      rw [List.map_append, List.mem_append, not_or]
      exact ⟨hafter, by simpa using hne⟩

namespace CrateReport

theorem putSummary_of_not_mem (h : key ∉ acc.map Prod.fst) :
    putSummary acc key v = acc ++ [(key, v)] := by
  induction acc with
  | nil => rfl
  | cons entry rest ih =>
    obtain ⟨n, old⟩ := entry
    rw [List.map_cons, List.mem_cons, not_or] at h
    rw [putSummary, if_neg (Ne.symm h.1), ih h.2, List.cons_append]

theorem keys_putSummary_of_mem (h : key ∈ acc.map Prod.fst) :
    (putSummary acc key v).map Prod.fst = acc.map Prod.fst := by
  induction acc with
  | nil => cases h
  | cons entry rest ih =>
    obtain ⟨n, old⟩ := entry
    by_cases hn : n = key
    · rw [putSummary, if_pos hn]
      rfl
    · rw [List.map_cons, List.mem_cons] at h
      rw [putSummary, if_neg hn, List.map_cons, List.map_cons,
        ih (h.resolve_left fun heq => hn heq.symm)]

/-- Under its name a new entry is the only one, if names were distinct before. -/
theorem mem_putSummary_iff (hnodup : (acc.map Prod.fst).Nodup) :
    (name, s) ∈ putSummary acc key v ↔ (name = key ∧ s = v) ∨ (name ≠ key ∧ (name, s) ∈ acc) := by
  induction acc with
  | nil => simp [putSummary]
  | cons entry rest ih =>
    obtain ⟨n, old⟩ := entry
    obtain ⟨hn, hrest⟩ := List.nodup_cons.1 hnodup
    by_cases hkey : n = key
    · subst hkey
      have hother : (name, s) ∈ rest → name ≠ n := by
        intro hmem heq
        exact hn (List.mem_map.2 ⟨(name, s), hmem, heq⟩)
      rw [putSummary, if_pos rfl, List.mem_cons, List.mem_cons, Prod.mk.injEq, Prod.mk.injEq]
      constructor
      · intro h
        rcases h with hnew | hold
        · exact .inl hnew
        · exact .inr ⟨hother hold, .inr hold⟩
      · intro h
        rcases h with hnew | ⟨hne, ⟨heq, -⟩ | hold⟩
        · exact .inl hnew
        · exact absurd heq hne
        · exact .inr hold
    · rw [putSummary, if_neg hkey, List.mem_cons, List.mem_cons, ih hrest, Prod.mk.injEq]
      constructor
      · intro h
        rcases h with ⟨rfl, rfl⟩ | hnew | ⟨hne, hold⟩
        · exact .inr ⟨hkey, .inl ⟨rfl, rfl⟩⟩
        · exact .inl hnew
        · exact .inr ⟨hne, .inr hold⟩
      · intro h
        rcases h with hnew | ⟨hne, heq | hold⟩
        · exact .inr (.inl hnew)
        · exact .inl heq
        · exact .inr (.inr ⟨hne, hold⟩)

end CrateReport

/-- Entries brought together by name: the names are distinct and the same as before, under each of
them is its last entry, and nothing is lost exactly if the names were distinct before. -/
structure Collects (es acc : List (String × Summary)) : Prop where
  nodup : (acc.map Prod.fst).Nodup
  mem_keys_iff : ∀ name, name ∈ acc.map Prod.fst ↔ name ∈ es.map Prod.fst
  mem_iff : ∀ name s, (name, s) ∈ acc ↔ LastEntry es name s
  length_le : acc.length ≤ es.length
  length_eq_iff : acc.length = es.length ↔ (es.map Prod.fst).Nodup

/-- Putting one more entry. -/
theorem Collects.put (h : Collects es acc) (key : String) (v : Summary) :
    Collects (es ++ [(key, v)]) (CrateReport.putSummary acc key v) := by
  have hmem : ∀ name s, (name, s) ∈ CrateReport.putSummary acc key v ↔
      LastEntry (es ++ [(key, v)]) name s := by
    intro name s
    rw [CrateReport.mem_putSummary_iff h.nodup, lastEntry_concat_iff, h.mem_iff]
  have hkeys : (es ++ [(key, v)]).map Prod.fst = es.map Prod.fst ++ [key] := List.map_append
  have hsize : (es ++ [(key, v)]).length = es.length + 1 := List.length_append
  have hle := h.length_le
  have hdistinct : ((es.map Prod.fst) ++ [key]).Nodup ↔
      (es.map Prod.fst).Nodup ∧ key ∉ es.map Prod.fst := by
    rw [← List.concat_eq_append, List.nodup_concat, and_comm]
  by_cases hkey : key ∈ acc.map Prod.fst
  · -- the names stay as they are, so that one entry is lost for good
    have hsame := CrateReport.keys_putSummary_of_mem (v := v) hkey
    have hlength : (CrateReport.putSummary acc key v).length = acc.length := by
      rw [← List.length_map Prod.fst, hsame, List.length_map]
    have hold : key ∈ es.map Prod.fst := (h.mem_keys_iff key).1 hkey
    refine ⟨hsame ▸ h.nodup, ?_, hmem, by omega, ?_⟩
    · intro name
      rw [hsame, h.mem_keys_iff, hkeys, List.mem_append, List.mem_singleton]
      exact ⟨.inl, fun hname => hname.elim id fun heq => heq ▸ hold⟩
    · rw [hkeys, hdistinct]
      constructor
      · intro heq
        omega
      · intro hnodup
        exact absurd hold hnodup.2
  · have hnew := CrateReport.putSummary_of_not_mem (v := v) hkey
    have hlength : (CrateReport.putSummary acc key v).length = acc.length + 1 := by
      rw [hnew, List.length_append]
      rfl
    have hnewkeys : (CrateReport.putSummary acc key v).map Prod.fst =
        acc.map Prod.fst ++ [key] := by
      rw [hnew, List.map_append]
      rfl
    have hfresh : key ∉ es.map Prod.fst := mt (h.mem_keys_iff key).2 hkey
    refine ⟨?_, ?_, hmem, by omega, ?_⟩
    · rw [hnewkeys, ← List.concat_eq_append, List.nodup_concat]
      exact ⟨hkey, h.nodup⟩
    · intro name
      rw [hnewkeys, hkeys, List.mem_append, List.mem_append, h.mem_keys_iff]
    · rw [hkeys, hdistinct, ← h.length_eq_iff, hlength, hsize]
      constructor
      · intro heq
        exact ⟨by omega, hfresh⟩
      · intro heq
        omega

/-- Putting entries one after the other. -/
theorem collects_foldl (es : List (String × Summary)) :
    Collects es (es.foldl (fun acc e => CrateReport.putSummary acc e.1 e.2) []) := by
  induction es using List.reverseRecOn with
  | nil =>
    refine ⟨List.nodup_nil, fun _ => Iff.rfl, ?_, Nat.le_refl _, iff_of_true rfl List.nodup_nil⟩
    intro name s
    refine iff_of_false List.not_mem_nil ?_
    intro h
    obtain ⟨before, after, hes, -⟩ := h
    exact List.append_ne_nil_of_right_ne_nil _ (List.cons_ne_nil _ _) hes.symm
  | append_singleton es e ih =>
    rw [List.foldl_append]
    exact ih.put e.1 e.2

end

/-! ### The summaries of a report -/

namespace Function

variable {f : Function} {checker : Overflow.Checker} {settings : Settings}

/-- What a function adds to the summaries: its own, if it is analysed. -/
def entry? (f : Function) : Option (String × Summary) :=
  if f.body.isEligible then f.body.summary.toOption.map fun s => (f.name, s) else none

theorem entry?_eq_some {name : String} {s : Summary} :
    f.entry? = some (name, s) ↔
      f.name = name ∧ f.body.Analysable ∧ f.body.summary = .ok s := by
  rw [Body.analysable_iff, entry?]
  by_cases helig : f.body.isEligible = true
  · rw [if_pos helig]
    cases hsummary : f.body.summary with
    | error fault => simp [Except.toOption]
    | ok summary => simp [Except.toOption, helig]
  · rw [if_neg helig]
    simp [helig]

/-- The summary in a report is that of the function's body. -/
theorem summary_of_analyze {rep : FunctionReport} (h : f.analyze checker settings = .ok rep)
    {s : Summary} (hs : rep.summary = some s) : f.body.summary = .ok s := by
  obtain ⟨e, he, rfl⟩ := map_eq_ok.1 h
  unfold examine at he
  split at he
  · split at he
    · cases he
      cases hs
    · split at he
      · cases he
        cases hs
      · rename_i summary hsummary
        unfold examineBody at he
        split at he
        · cases he
          obtain rfl : summary = s := Option.some.inj hs
          exact hsummary
        · cases he
          cases hs
        · cases he
  · cases he
    cases hs

/-- What a report has to give is what its function adds. -/
theorem entry?_of_analyze {rep : FunctionReport} (h : f.analyze checker settings = .ok rep) :
    f.entry? = rep.summary.map fun s => (rep.name, s) := by
  have hname := name_of_analyze h
  obtain ⟨e, he, rfl⟩ := map_eq_ok.1 h
  by_cases hb : f.body.Analysable
  · have hok := ok_of_analysable hb he checker settings
    obtain ⟨s, hs⟩ := Option.isSome_iff_exists.1 hok
    rw [hs, hname]
    exact entry?_eq_some.2 ⟨rfl, hb, summary_of_analyze h hs⟩
  · obtain ⟨fault, -, e', he', hreport⟩ := exists_stopsWith hb
    obtain rfl : e = e' := Except.ok.inj (he.symm.trans he')
    rw [hreport checker settings]
    cases hentry : f.entry? with
    | none => rfl
    | some entry => exact absurd (entry?_eq_some.1 hentry).2.1 hb

end Function

/-- The summaries of a report are its entries brought together. -/
theorem CrateReport.summaries_eq_foldl (r : CrateReport) :
    r.summaries =
      (r.functions.filterMap fun rep => rep.summary.map fun s => (rep.name, s)).foldl
        (fun acc e => putSummary acc e.1 e.2) [] := by
  rw [summaries, List.foldl_filterMap]
  congr 1
  funext acc rep
  cases rep.summary with
  | none => rfl
  | some s => rfl

/-- The summaries of a report agree with a crate: there is one for each analysed function, and each
is that of the function that is found under its name. -/
structure CrateReport.Summarises (report : CrateReport) (c : Crate) : Prop where
  length_eq : report.summaries.length = report.functions.countP FunctionReport.ok
  found : ∀ name s, (name, s) ∈ report.summaries →
    ∃ f, c.find name = .ok f ∧ f.body.summary = .ok s

namespace Crate

variable {c : Crate} {checker : Overflow.Checker} {settings : Settings} {report : CrateReport}

/-- What the functions of a crate add to the summaries. -/
def entries (c : Crate) (settings : Settings) : List (String × Summary) :=
  (c.selected settings).filterMap Function.entry?

theorem entries_of_reports {fs : List Function} {reps : List FunctionReport}
    (h : List.Forall₂ (fun f rep => f.analyze checker settings = .ok rep) fs reps) :
    fs.filterMap Function.entry? =
      reps.filterMap fun rep => rep.summary.map fun s => (rep.name, s) := by
  induction h with
  | nil => rfl
  | cons hrep _ ih =>
    rw [List.filterMap_cons, List.filterMap_cons, ih, Function.entry?_of_analyze hrep]

/-- **The summaries of a crate are what its selected functions add, brought together by name.** -/
theorem collects_entries (h : c.analyze checker settings = .ok report) :
    Collects (c.entries settings) report.summaries ∧
      (c.entries settings).length = report.functions.countP FunctionReport.ok := by
  obtain ⟨reps, hreps, rfl⟩ := analyze_eq_ok.1 h
  have hentries : c.entries settings =
      reps.filterMap fun rep => rep.summary.map fun s => (rep.name, s) := entries_of_reports hreps
  constructor
  · rw [CrateReport.summaries_eq_foldl, hentries]
    exact collects_foldl _
  · rw [hentries, List.length_filterMap_eq_countP]
    congr 1
    funext rep
    exact Option.isSome_map

/-- **The summary under a name is that of the last analysed function of that name.** -/
theorem mem_summaries_iff (h : c.analyze checker settings = .ok report) {name : String}
    {s : Summary} :
    (name, s) ∈ report.summaries ↔
      ∃ before f after, c.selected settings = before ++ f :: after ∧ f.name = name ∧
        f.body.Analysable ∧ f.body.summary = .ok s ∧
        ∀ g ∈ after, g.name = name → ¬g.body.Analysable := by
  have hnone : ∀ after : List Function, name ∉ (after.filterMap Function.entry?).map Prod.fst ↔
      ∀ g ∈ after, g.name = name → ¬g.body.Analysable := by
    intro after
    simp only [List.mem_map, List.mem_filterMap, Prod.exists, Function.entry?_eq_some]
    constructor
    · intro hno g hg hname hb
      obtain ⟨-, s, hs⟩ := Body.analysable_iff.1 hb
      exact hno ⟨name, s, ⟨g, hg, hname, hb, hs⟩, rfl⟩
    · intro hall hsome
      obtain ⟨_, s, ⟨g, hg, hname, hb, -⟩, rfl⟩ := hsome
      exact hall g hg hname hb
  rw [(collects_entries h).1.mem_iff, LastEntry, entries]
  constructor
  · intro hlast
    obtain ⟨before, after, hsplit, hafter⟩ := hlast
    obtain ⟨fs, rest, hfs, -, hrest⟩ := List.filterMap_eq_append_iff.1 hsplit
    obtain ⟨passed, f, gs, rfl, -, hf, rfl⟩ := List.filterMap_eq_cons_iff.1 hrest
    obtain ⟨hname, hb, hs⟩ := Function.entry?_eq_some.1 hf
    refine ⟨fs ++ passed, f, gs, ?_, hname, hb, hs, (hnone gs).1 hafter⟩
    rw [hfs, List.append_assoc]
  · intro hlast
    obtain ⟨before, f, after, hsplit, hname, hb, hs, hafter⟩ := hlast
    refine ⟨before.filterMap Function.entry?, after.filterMap Function.entry?, ?_,
      (hnone after).2 hafter⟩
    rw [hsplit, List.filterMap_append, List.filterMap_cons,
      Function.entry?_eq_some.2 ⟨hname, hb, hs⟩]

/-- Among functions with distinct names each one is found under its own. -/
theorem find_of_nodup (hnodup : (c.functions.map Function.name).Nodup) {f : Function}
    (hf : f ∈ c.functions) : c.find f.name = .ok f := by
  have hfind : c.functions.find? (fun g => g.name == f.name) = some f := by
    generalize c.functions = fs at hnodup hf
    induction fs with
    | nil => cases hf
    | cons g fs ih =>
      obtain ⟨hg, hfs⟩ := List.nodup_cons.1 hnodup
      rcases List.mem_cons.1 hf with rfl | hmem
      · exact List.find?_cons_of_pos (beq_self_eq_true _)
      · have hne : ¬(g.name == f.name) = true := by
          rw [beq_iff_eq]
          exact fun heq => hg (List.mem_map.2 ⟨f, hmem, heq.symm⟩)
        rw [List.find?_cons_of_neg (p := fun g : Function => g.name == f.name) hne]
        exact ih hfs hmem
  rw [find, hfind]

/-- **When summaries and look-up by name agree.**  Let the analysis of a crate return.

* There is a summary for each analysed function, and each is that of the function found under its
  name, exactly if no two selected functions that can be analysed have one name, and each of them
  has the summary of the first function of its name.
* So it is if all functions of the crate have distinct names.
* In any case there is one summary under a name: that of the last selected function of this name
  that can be analysed. -/
theorem summaries_agree_iff (h : c.analyze checker settings = .ok report) :
    (report.Summarises c ↔
      ((c.selected settings).Pairwise fun f g =>
        f.body.Analysable → g.body.Analysable → f.name ≠ g.name) ∧
      ∀ f ∈ c.selected settings, f.body.Analysable →
        ∃ g, c.find f.name = .ok g ∧ g.body.summary = f.body.summary) ∧
    ((c.functions.map Function.name).Nodup → report.Summarises c) ∧
    (report.summaries.map Prod.fst).Nodup ∧
    ∀ name s, (name, s) ∈ report.summaries ↔
      ∃ before f after, c.selected settings = before ++ f :: after ∧ f.name = name ∧
        f.body.Analysable ∧ f.body.summary = .ok s ∧
        ∀ g ∈ after, g.name = name → ¬g.body.Analysable := by
  obtain ⟨hcollects, hcount⟩ := collects_entries h
  have hlength : report.summaries.length = report.functions.countP FunctionReport.ok ↔
      (c.selected settings).Pairwise fun f g =>
        f.body.Analysable → g.body.Analysable → f.name ≠ g.name := by
    rw [← hcount, hcollects.length_eq_iff, List.Nodup, List.pairwise_map, entries,
      List.pairwise_filterMap]
    refine ⟨fun hall => hall.imp ?_, fun hall => hall.imp ?_⟩
    · intro f g hfg hf hg
      obtain ⟨-, s, hs⟩ := Body.analysable_iff.1 hf
      obtain ⟨-, t, ht⟩ := Body.analysable_iff.1 hg
      exact hfg _ (Function.entry?_eq_some.2 ⟨rfl, hf, hs⟩) _
        (Function.entry?_eq_some.2 ⟨rfl, hg, ht⟩)
    · intro f g hfg e he e' he'
      obtain ⟨hname, hf, -⟩ := Function.entry?_eq_some.1 he
      obtain ⟨hname', hg, -⟩ := Function.entry?_eq_some.1 he'
      exact hname ▸ hname' ▸ hfg hf hg
  have hiff : report.Summarises c ↔
      ((c.selected settings).Pairwise fun f g =>
        f.body.Analysable → g.body.Analysable → f.name ≠ g.name) ∧
      ∀ f ∈ c.selected settings, f.body.Analysable →
        ∃ g, c.find f.name = .ok g ∧ g.body.summary = f.body.summary := by
    constructor
    · intro hagree
      have hdistinct := hlength.1 hagree.length_eq
      refine ⟨hdistinct, ?_⟩
      intro f hf hb
      obtain ⟨-, s, hs⟩ := Body.analysable_iff.1 hb
      obtain ⟨before, after, hsplit⟩ := List.append_of_mem hf
      -- no later function has the name, so the summary of this one is kept
      have hkept : (f.name, s) ∈ report.summaries := by
        refine (mem_summaries_iff h).2 ⟨before, f, after, hsplit, rfl, hb, hs, ?_⟩
        intro g hg hname hb'
        rw [hsplit, List.pairwise_append, List.pairwise_cons] at hdistinct
        exact hdistinct.2.1.1 g hg hb hb' hname.symm
      obtain ⟨g, hg, hgs⟩ := hagree.found _ _ hkept
      exact ⟨g, hg, hgs.trans hs.symm⟩
    · intro hcond
      refine ⟨hlength.2 hcond.1, ?_⟩
      intro name s hmem
      obtain ⟨before, f, after, hsplit, rfl, hb, hs, -⟩ := (mem_summaries_iff h).1 hmem
      have hf : f ∈ c.selected settings := by
        rw [hsplit]
        exact List.mem_append_right _ List.mem_cons_self
      obtain ⟨g, hg, hgs⟩ := hcond.2 f hf hb
      exact ⟨g, hg, hgs.trans hs⟩
  refine ⟨hiff, ?_, hcollects.nodup, fun name s => mem_summaries_iff h⟩
  intro hnodup
  refine hiff.2 ⟨?_, ?_⟩
  · have hselected : ((c.selected settings).map Function.name).Nodup :=
      hnodup.sublist (List.filter_sublist.map _)
    exact (List.pairwise_map.1 hselected).imp fun hne _ _ => hne
  · intro f hf _
    exact ⟨f, find_of_nodup hnodup (List.mem_filter.1 hf).1, rfl⟩

/-- A function without arguments and blocks, by its result and further locals. -/
def constantly (name : String) (result : Ty) (others : List Ty) : Function where
  name := name
  body := { blocks := [], locals := (result :: others).map (⟨·, false⟩), argCount := 0 }

/-- Two functions of one name: the first returns a truth value and cannot be analysed, since it has
a local that is a reference; the second returns an integer. -/
def twice : Crate where
  name := "twice"
  functions := [constantly "f" .bool [.ref .bool false], constantly "f" (.uint 8) []]

/-- The same functions under different names. -/
def renamed : Crate where
  name := "renamed"
  functions := [constantly "f" .bool [.ref .bool false], constantly "g" (.uint 8) []]

theorem summaries_agree_iff_renamed :
    ∃ report, renamed.analyze Solver.ends.verdict {} = .ok report ∧ report.Summarises renamed ∧
      ∀ s, ("g", s) ∈ report.summaries → (constantly "g" (.uint 8) []).body.summary = .ok s := by
  obtain ⟨report, hreport⟩ : ∃ report, renamed.analyze Solver.ends.verdict {} = .ok report :=
    ⟨_, rfl⟩
  have hagree := (summaries_agree_iff hreport).2.1 (by decide)
  refine ⟨report, hreport, hagree, ?_⟩
  intro s hs
  obtain ⟨f, hf, hfs⟩ := hagree.found "g" s hs
  cases hf
  exact hfs

/-- A crate that is read from a document has a summary under a name that is not the summary of the
function found under it; and if both functions of that name are analysed, one summary is lost. -/
theorem twice_summarised_otherwise :
    ofDocument twice.toDocument = .ok twice ∧
      (∃ report f s, twice.analyze Solver.ends.verdict {} = .ok report ∧ twice.find "f" = .ok f ∧
        ("f", s) ∈ report.summaries ∧ f.body.summary ≠ .ok s ∧ ¬report.Summarises twice) ∧
      ∃ report, Crate.analyze ⟨"both", [constantly "f" .bool [], constantly "f" (.uint 8) []]⟩
          Solver.ends.verdict {} = .ok report ∧
        report.functions.countP FunctionReport.ok = 2 ∧ report.summaries.length = 1 := by
  refine ⟨lossless.read_write (by decide), ?_, _, rfl, rfl, rfl⟩
  have hother : Except.ok (ε := Fault) (Summary.mk [] (some (.bool .top))) ≠
      .ok ⟨[], some (.uint .top)⟩ := by
    simp
  refine ⟨_, constantly "f" .bool [.ref .bool false], ⟨[], some (.uint .top)⟩, rfl, rfl, .head _,
    hother, ?_⟩
  intro hagree
  obtain ⟨f, hf, hs⟩ := hagree.found "f" _ (.head _)
  cases hf
  exact hother hs

end Crate

end MirRange
