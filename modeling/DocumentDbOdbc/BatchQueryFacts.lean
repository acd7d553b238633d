/-
The pages of `Execute`, and the results that are read after it.

A round of the loop either fails or moves on by a page (`page_spec`), so with a
fetch size above zero the pages partition the rows and the loop ends
(`execute_paged_iff`). No operation ever says that the query was executed
(`Reachable.not_executed`): `FetchNextRow` always denies it, and `Execute`
never closes the query first, so the counts of a new execution are read from
where the last enumeration stopped.
-/
import DocumentDbOdbc.AttributeRejection
import DocumentDbOdbc.BatchQuery
import DocumentDbOdbc.Lib.Intervals
import Mathlib.Logic.Relation

namespace DocumentDbOdbc

open Intervals

def Page.interval (p : Page) : Nat × Nat := (p.begin, p.stop)

/-- The page was executed. -/
def Reply.Succeeds : Reply → Prop
  | .response status _ _ _ _ => status = 0
  | _ => False

namespace BatchQuery

/-! ## A page -/

theorem succeeded_makeRequest (q : BatchQuery) (params : ParameterSet) (reply : Reply) :
    succeeded (q.makeRequestExecuteBatch params reply).2.2.1 = true ↔ reply.Succeeds := by
  cases reply with
  | timeout | odbcError | documentDbError => simp [makeRequestExecuteBatch, succeeded, Reply.Succeeds]
  | response status error rows errorMessage errorCode =>
    by_cases hs : status = 0
    · by_cases hm : errorMessage = [] <;> simp [makeRequestExecuteBatch, succeeded, Reply.Succeeds, hs, hm]
    · simp [makeRequestExecuteBatch, succeeded, Reply.Succeeds, hs]

theorem int32Result_of_mem {v : Int} (h : -2147483648 ≤ v) (h' : v ≤ 2147483647) : int32Result v = some v :=
  if_pos ⟨h, h'⟩

theorem sqlUlen_natCast {n : Nat} (h : n < 18446744073709551616) : sqlUlen n = n := by
  rw [sqlUlen]
  omega

section

variable {maxPageSize : Int32} {n : Nat} {reply : Nat → Reply}

/-- What the pages sent so far have to be: they lead from the first row to
`upto`, none is longer than the fetch size, and those that end with the last
row say so. -/
structure PagesUpto (n : Nat) (size : Int) (upto : Nat) (pages : List Page) : Prop where
  contiguous : Contiguous 0 (pages.map Page.interval) upto
  size : ∀ page ∈ pages, (page.stop : Int) - page.begin ≤ size
  last : ∀ page ∈ pages, (page.last = true ↔ page.stop = n)

/-- The page from row `p` on. -/
def pageFrom (maxPageSize : Int32) (n p : Nat) : Page :=
  let stop := min (p + maxPageSize.toInt.toNat) n
  ⟨p, stop, stop == n⟩

/-- **A round** sends the page from `processed` on. -/
theorem page_spec (hpos : 0 < maxPageSize.toInt) (hn : n < 2 ^ 31) {s : Paging} {p : Nat} (hp : s.processed = p)
    (hlt : p < n) (reply : Nat → Reply) :
    ∃ s', page maxPageSize (.ofNat n) reply s = some s' ∧ s'.processed = (pageFrom maxPageSize n p).stop ∧
      s'.pages = s.pages ++ [pageFrom maxPageSize n p] ∧
      (succeeded s'.res = true ↔ (reply s.pages.length).Succeeds) := by
  have hrow : (Int32.ofNat n).toInt = n := toInt32_ofNat hn
  obtain ⟨size, hsize⟩ : ∃ size : Nat, maxPageSize.toInt = size := ⟨_, (Int.toNat_of_nonneg hpos.le).symm⟩
  have hrest : int32Result ((Int32.ofNat n).toInt - s.processed) = some ((n - p : Nat) : Int) := by
    rw [hrow, hp, int32Result_of_mem (by omega) (by omega)]
    congr 1
    omega
  have hmin : min maxPageSize.toInt ((n - p : Nat) : Int) = (min size (n - p) : Nat) := by rw [hsize]; omega
  have hstop : (s.processed + (min size (n - p) : Nat) : Int) = (min (p + size) n : Nat) := by rw [hp]; omega
  have hstopResult : int32Result ((min (p + size) n : Nat) : Int) = some ((min (p + size) n : Nat) : Int) :=
    int32Result_of_mem (by omega) (by omega)
  have hlast : (((min size (n - p) : Nat) : Int) == ((n - p : Nat) : Int)) = (min (p + size) n == n) := by
    rw [Bool.eq_iff_iff, beq_iff_eq, beq_iff_eq]
    omega
  have hbegin : sqlUlen (p : Int) = p := sqlUlen_natCast (by omega)
  have hend : sqlUlen ((min (p + size) n : Nat) : Int) = min (p + size) n := sqlUlen_natCast (by omega)
  have hpage : page maxPageSize (.ofNat n) reply s = some {
      query := (s.query.makeRequestExecuteBatch s.params (reply s.pages.length)).1
      params := (s.query.makeRequestExecuteBatch s.params (reply s.pages.length)).2.1
      res := (s.query.makeRequestExecuteBatch s.params (reply s.pages.length)).2.2.1
      processed := (min (p + size) n : Nat)
      pages := s.pages ++ [⟨p, min (p + size) n, min (p + size) n == n⟩]
      diag := s.diag ++ (s.query.makeRequestExecuteBatch s.params (reply s.pages.length)).2.2.2 } := by
    simp only [page, hrest, Option.bind_eq_bind, Option.bind_some, hmin, hstop, hstopResult, hlast, hend]
    rw [hp, hbegin]
    rfl
  refine ⟨_, hpage, ?_, ?_, succeeded_makeRequest _ _ _⟩
  · simp [pageFrom, hsize]
  · simp [pageFrom, hsize]

theorem pagesUpto_concat (hpos : 0 < maxPageSize.toInt) {p : Nat} (hlt : p < n) {pages : List Page}
    (h : PagesUpto n maxPageSize.toInt p pages) :
    PagesUpto n maxPageSize.toInt (pageFrom maxPageSize n p).stop (pages ++ [pageFrom maxPageSize n p]) where
  contiguous := by
    rw [List.map_append]
    exact h.contiguous.concat (by simp only [pageFrom]; omega)
  size page hpage := by
    rcases List.mem_append.mp hpage with hpage | hpage
    · exact h.size page hpage
    · obtain rfl := List.mem_singleton.mp hpage
      simp only [pageFrom]
      omega
  last page hpage := by
    rcases List.mem_append.mp hpage with hpage | hpage
    · exact h.last page hpage
    · obtain rfl := List.mem_singleton.mp hpage
      simp [pageFrom]

/-! ## All pages -/

/-- What the pages of an execution have to be. Nothing is sent behind a page
that fails; if none fails, the pages partition the rows and the last one alone
says that it is. -/
structure PagesRight (n : Nat) (size : Int) (reply : Nat → Reply) (pages : List Page) : Prop where
  upto : ∃ m ≤ n, PagesUpto n size m pages
  stops : ∀ k, k + 1 < pages.length → (reply k).Succeeds
  complete : (∀ k < pages.length, (reply k).Succeeds) → Contiguous 0 (pages.map Page.interval) n
  final : (∀ k < pages.length, (reply k).Succeeds) → ∀ k (h : k < pages.length), pages[k].last = true ↔ k + 1 = pages.length
  partition : (∀ k < pages.length, (reply k).Succeeds) → ∀ row < n, ∃ i ∈ pages.map Page.interval,
    (i.1 ≤ row ∧ row < i.2) ∧ ∀ j ∈ pages.map Page.interval, j.1 ≤ row ∧ row < j.2 → j = i

theorem PagesUpto.right {size : Int} {m : Nat} {pages : List Page} (h : PagesUpto n size m pages) (hm : m ≤ n)
    (hstops : ∀ k, k + 1 < pages.length → (reply k).Succeeds)
    (hall : (∀ k < pages.length, (reply k).Succeeds) → m = n) : PagesRight n size reply pages where
  upto := ⟨m, hm, h⟩
  stops := hstops
  complete hs := hall hs ▸ h.contiguous
  final hs k hk := by
    have hcontiguous : Contiguous 0 (pages.map Page.interval) n := hall hs ▸ h.contiguous
    have hstop := hcontiguous.stop_eq_iff k (by simpa using hk)
    rw [h.last _ (List.getElem_mem hk)]
    simpa [Page.interval] using hstop
  partition hs row hrow := by
    have hcontiguous : Contiguous 0 (pages.map Page.interval) n := hall hs ▸ h.contiguous
    exact hcontiguous.existsUnique (Nat.zero_le row) hrow

/-- Every round moves on by a row at least. -/
theorem executeLoop_returns (hpos : 0 < maxPageSize.toInt) (hn : n < 2 ^ 31) (reply : Nat → Reply) {fuel : Nat} {s : Paging}
    {p : Nat} (hp : s.processed = p) (hlt : p < n) (hfuel : n - p ≤ fuel) :
    ∃ s', executeLoop maxPageSize (.ofNat n) reply fuel s = some s' := by
  induction fuel generalizing s p with
  | zero => omega
  | succ fuel ih =>
    obtain ⟨s', hpage, hprocessed, -, -⟩ := page_spec hpos hn hp hlt reply
    rw [executeLoop, hpage, Option.bind_eq_bind, Option.bind_some]
    split
    next hmore =>
      have hstop : ((pageFrom maxPageSize n p).stop : Int) < n := by
        rw [← hprocessed, ← toInt32_ofNat hn]
        exact of_decide_eq_true (Bool.and_eq_true_iff.mp hmore).2
      refine ih hprocessed (by omega) ?_
      simp only [pageFrom] at hstop ⊢
      omega
    · exact ⟨s', rfl⟩

/-- **The loop** keeps the pages right, as long as the replies were. -/
theorem executeLoop_pages (hpos : 0 < maxPageSize.toInt) (hn : n < 2 ^ 31) {fuel : Nat} {s s' : Paging} {p : Nat}
    (hp : s.processed = p) (hlt : p < n) (hpages : PagesUpto n maxPageSize.toInt p s.pages)
    (hreplies : ∀ k < s.pages.length, (reply k).Succeeds)
    (h : executeLoop maxPageSize (.ofNat n) reply fuel s = some s') : PagesRight n maxPageSize.toInt reply s'.pages := by
  induction fuel generalizing s p with
  | zero => cases h
  | succ fuel ih =>
    obtain ⟨s₁, hpage, hprocessed, hsent, hsucceeded⟩ := page_spec hpos hn hp hlt reply
    have hupto := pagesUpto_concat hpos hlt hpages
    have hle : (pageFrom maxPageSize n p).stop ≤ n := Nat.min_le_right _ _
    rw [← hsent] at hupto
    rw [executeLoop, hpage, Option.bind_eq_bind, Option.bind_some] at h
    have hlength : s₁.pages.length = s.pages.length + 1 := by rw [hsent, List.length_append, List.length_singleton]
    split at h
    next hmore =>
      obtain ⟨hres, hless⟩ := Bool.and_eq_true_iff.mp hmore
      have hstop : ((pageFrom maxPageSize n p).stop : Int) < n := by
        rw [← hprocessed, ← toInt32_ofNat hn]
        exact of_decide_eq_true hless
      refine ih hprocessed (by omega) hupto (fun k hk => ?_) h
      rcases Nat.lt_succ_iff_lt_or_eq.mp (hlength ▸ hk) with hk | rfl
      · exact hreplies k hk
      · exact hsucceeded.mp hres
    next hstops =>
      obtain rfl : s₁ = s' := Option.some.inj h
      refine hupto.right hle (fun k hk => hreplies k (by omega)) fun hall => ?_
      -- the last page succeeded, so the loop stopped at the end
      have hres := hsucceeded.mpr (hall s.pages.length (by omega))
      rw [hres, Bool.true_and, decide_eq_true_eq, hprocessed, toInt32_ofNat hn] at hstops
      omega

end

/-- `Execute` comes back, and its pages are right. -/
structure Paged (q : BatchQuery) (params : ParameterSet) (maxPageSize : Int32) (reply : Nat → Reply) : Prop where
  returns : ∃ fuel s, execute maxPageSize reply q params fuel = some s
  pages : ∀ fuel s, execute maxPageSize reply q params fuel = some s →
    PagesRight params.paramSetSize maxPageSize.toInt reply s.pages

section

variable {maxPageSize : Int32} {reply : Nat → Reply} {q : BatchQuery} {params : ParameterSet}

theorem length_page {rowNum : Int32} {s s' : Paging} (h : page maxPageSize rowNum reply s = some s') :
    s'.pages.length = s.pages.length + 1 := by
  obtain ⟨rest, -, h⟩ := Option.bind_eq_some_iff.mp h
  obtain ⟨stop, -, h⟩ := Option.bind_eq_some_iff.mp h
  obtain rfl := Option.some.inj h
  simp

theorem lt_length_executeLoop {rowNum : Int32} {fuel : Nat} {s s' : Paging}
    (h : executeLoop maxPageSize rowNum reply fuel s = some s') : s.pages.length < s'.pages.length := by
  induction fuel generalizing s with
  | zero => cases h
  | succ fuel ih =>
    obtain ⟨s₁, hpage, h⟩ := Option.bind_eq_some_iff.mp h
    have hlength := length_page hpage
    split at h
    · have := ih h
      omega
    · obtain rfl := Option.some.inj h
      omega

/-- What the loop of an execution leaves. -/
theorem execute_eq_some {fuel : Nat} {s : Paging} (h : execute maxPageSize reply q params fuel = some s) :
    ∃ s', executeLoop maxPageSize params.getParamSetSize reply fuel
        { query := { (if q.executed then q.close else q) with rowsAffected := [] }, params } = some s' ∧
      s.pages = s'.pages ∧ s.query = s'.query ∧ s.res = s'.res := by
  obtain ⟨s', hloop, h⟩ := Option.bind_eq_some_iff.mp h
  obtain rfl := Option.some.inj h
  exact ⟨s', hloop, rfl, rfl, rfl⟩

/-- The first page is not empty and not longer than the fetch size. -/
theorem Paged.pos (h : Paged q params maxPageSize reply) : 0 < maxPageSize.toInt := by
  obtain ⟨fuel, s, hs⟩ := h.returns
  obtain ⟨m, -, hupto⟩ := (h.pages fuel s hs).upto
  obtain ⟨s', hloop, hpages, -⟩ := execute_eq_some hs
  have hsent := lt_length_executeLoop hloop
  rw [← hpages] at hsent
  cases hp : s.pages with
  | nil =>
    rw [hp] at hsent
    cases hsent
  | cons page rest =>
    rw [hp] at hupto
    obtain ⟨hbegin, hstop⟩ := hupto.contiguous.head
    have hsize := hupto.size page (List.mem_cons_self ..)
    simp only [Page.interval] at hbegin hstop
    omega

theorem paged_of_pos (hn : 1 ≤ params.paramSetSize ∧ params.paramSetSize < 2 ^ 31) (hpos : 0 < maxPageSize.toInt) :
    Paged q params maxPageSize reply where
  returns := by
    obtain ⟨s, hs⟩ := executeLoop_returns hpos hn.2 reply
      (s := { query := { (if q.executed then q.close else q) with rowsAffected := [] }, params }) (p := 0) rfl hn.1
      (Nat.sub_le _ _)
    exact ⟨params.paramSetSize, _, by rw [execute, ParameterSet.getParamSetSize, hs]; rfl⟩
  pages fuel s h := by
    obtain ⟨s', hloop, hpages, -⟩ := execute_eq_some h
    rw [hpages]
    exact executeLoop_pages hpos hn.2 (p := 0)
      (s := { query := { (if q.executed then q.close else q) with rowsAffected := [] }, params }) rfl hn.1
      ⟨.nil 0, by simp, by simp⟩ (fun k hk => absurd hk (Nat.not_lt_zero k)) hloop

end

/-! ## The fetch size of a connection string -/

open ConnectionStringParser

/-- Where no `default_fetch_size` wraps, the fetch size is above zero. -/
theorem defaultFetchSize_pos {H : Host} {pairs : List (Str × Str)} {c : Configuration H}
    (hc : 0 < (c.getValue .defaultFetchSize : Int32).toInt)
    (h : ∀ v ∈ valuesIn .defaultFetchSize pairs, ¬ Wraps H v) :
    0 < ((applyPairs c pairs).getValue .defaultFetchSize : Int32).toInt := by
  induction pairs generalizing c with
  | nil => exact hc
  | cons pair pairs ih =>
    obtain ⟨key, value⟩ := pair
    rw [valuesIn_cons] at h
    rw [applyPairs_cons]
    by_cases hkey : attrOfKey (toLower key) = some .defaultFetchSize
    · rw [if_pos hkey, List.forall_mem_cons] at h
      refine ih ?_ h.2
      have hpair : handleAttributePair c key value = handleDefaultFetchSize c key value := by
        rw [handleAttributePair, hkey]
        rfl
      rw [hpair]
      by_cases hvalid : ValidNumber H 1 value
      · have hlt : Numeral.numeralValue value < 2 ^ 31 := by
          by_contra hge
          exact h.1 ⟨hvalid.1, hvalid.2.1, by omega, hvalid.2.2.2⟩
        have hone := hvalid.2.2.1
        rw [handleDefaultFetchSize, handleNumber_valid _ hvalid, Configuration.getValue, Configuration.setDefaultFetchSize,
          setValue_attr_self, toInt32_ofNat hlt]
        omega
      · rw [handleDefaultFetchSize, handleNumber_invalid _ hvalid]
        exact hc
    · rw [if_neg hkey] at h
      refine ih ?_ h
      rw [Configuration.getValue, handleAttributePair_frame c value fun a ha => ?_]
      · exact hc
      · rintro (rfl | ⟨-, h⟩)
        · exact hkey ha
        · cases h

/-- **Paging** is right exactly when the fetch size is above zero; it is not
when a connection string has let through a number that wraps. -/
theorem execute_paged_iff (q : BatchQuery) (params : ParameterSet)
    (hn : 1 ≤ params.paramSetSize ∧ params.paramSetSize < 2 ^ 31) (reply : Nat → Reply) :
    (∀ maxPageSize : Int32, Paged q params maxPageSize reply ↔ 0 < maxPageSize.toInt) ∧
    ∀ (H : Host) (str : Str), (∀ v ∈ valuesOf .defaultFetchSize str, ¬ Wraps H v) →
      Paged q params ((parseConnectionString (.fresh H) str).1.getValue .defaultFetchSize) reply := by
  refine ⟨fun maxPageSize => ⟨Paged.pos, paged_of_pos hn⟩, fun H str h => paged_of_pos hn ?_⟩
  rw [parseConnectionString_fst]
  have hfresh : 0 < ((Configuration.fresh H).getValue .defaultFetchSize : Int32).toInt :=
    (by decide : (0 : Int) < (2000 : Int32).toInt)
  refine defaultFetchSize_pos hfresh fun v hv => ?_
  rw [valuesIn_reverse] at hv
  exact h v (List.mem_reverse.mp hv)

theorem execute_paged_three : Paged {} { paramSetSize := 3 } 2 fun _ => .timeout :=
  ((execute_paged_iff {} { paramSetSize := 3 } (by decide) fun _ => .timeout).1 2).mpr (by decide)

/-- A fetch size of `UINT32_MAX` arrives as `-1`. -/
theorem execute_not_paged :
    ¬ ∀ (q : BatchQuery) (params : ParameterSet) (reply : Nat → Reply) (str : Str), 1 ≤ params.paramSetSize →
      params.paramSetSize < 2 ^ 31 →
      Paged q params ((parseConnectionString (.fresh .diskless) str).1.getValue .defaultFetchSize) reply := by
  intro h
  have hpaged := h {} {} (fun _ => .response 0 [] [1] [] 0) (ascii "default_fetch_size=4294967295") (by decide) (by decide)
  exact absurd hpaged.pos (by decide)

/-! ## Calls -/

/-- One call on a query. `AffectedRows` and `FetchNextRow` leave it as it is. -/
inductive Call : BatchQuery → BatchQuery → Prop
  | execute {maxPageSize : Int32} {reply : Nat → Reply} {q : BatchQuery} {params : ParameterSet} {fuel : Nat} {s : Paging}
    (h : q.execute maxPageSize reply params fuel = some s) : Call q s.query
  | affectedRows (q : BatchQuery) : Call q q
  | fetchNextRow (q : BatchQuery) : Call q q
  | nextResultSet (q : BatchQuery) : Call q q.nextResultSet.1
  | close (q : BatchQuery) : Call q q.close

/-- What a run of calls on a new query leads to. -/
def Reachable : BatchQuery → Prop := Relation.ReflTransGen Call {}

/-- The counts of a page that was executed. -/
def Reply.rows : Reply → List Int64
  | .response status _ rows _ _ => if status = 0 then rows else []
  | _ => []

/-- The counts of the first `n` pages. -/
def counts (reply : Nat → Reply) (n : Nat) : List Int64 := (List.range n).flatMap fun k => Reply.rows (reply k)

section

variable {maxPageSize : Int32} {reply : Nat → Reply} {q : BatchQuery} {params : ParameterSet}

/-- A request only adds counts. -/
theorem makeRequest_query (q : BatchQuery) (params : ParameterSet) (reply : Reply) :
    (q.makeRequestExecuteBatch params reply).1 = { q with rowsAffected := q.rowsAffected ++ Reply.rows reply } := by
  cases reply with
  | timeout | odbcError | documentDbError => simp [makeRequestExecuteBatch, Reply.rows]
  | response status error rows errorMessage errorCode =>
    by_cases hs : status = 0
    · by_cases hm : errorMessage = [] <;> simp [makeRequestExecuteBatch, Reply.rows, hs, hm]
    · simp [makeRequestExecuteBatch, Reply.rows, hs]

theorem page_query {rowNum : Int32} {s s' : Paging} (h : page maxPageSize rowNum reply s = some s') :
    s'.query = { s.query with rowsAffected := s.query.rowsAffected ++ Reply.rows (reply s.pages.length) } := by
  obtain ⟨rest, -, h⟩ := Option.bind_eq_some_iff.mp h
  obtain ⟨stop, -, h⟩ := Option.bind_eq_some_iff.mp h
  obtain rfl := Option.some.inj h
  exact makeRequest_query _ _ _

theorem executeLoop_query {rowNum : Int32} {fuel : Nat} {s s' : Paging}
    (hrows : s.query.rowsAffected = counts reply s.pages.length)
    (h : executeLoop maxPageSize rowNum reply fuel s = some s') :
    s'.query = { s.query with rowsAffected := counts reply s'.pages.length } := by
  induction fuel generalizing s with
  | zero => cases h
  | succ fuel ih =>
    obtain ⟨s₁, hpage, h⟩ := Option.bind_eq_some_iff.mp h
    have hquery := page_query hpage
    have hrows₁ : s₁.query.rowsAffected = counts reply s₁.pages.length := by
      rw [hquery, length_page hpage, counts, List.range_succ, List.flatMap_append, List.flatMap_singleton, hrows, counts]
    split at h
    · rw [ih hrows₁ h, hquery]
    · obtain rfl := Option.some.inj h
      rw [← hrows₁, hquery]

/-- **An execution** leaves the counts of its pages. -/
theorem execute_query {fuel : Nat} {s : Paging} (h : q.execute maxPageSize reply params fuel = some s) :
    s.query = { (if q.executed then q.close else q) with rowsAffected := counts reply s.pages.length } := by
  obtain ⟨s', hloop, hpages, hquery, -⟩ := execute_eq_some h
  rw [hquery, hpages]
  exact executeLoop_query (s := { query := { (if q.executed then q.close else q) with rowsAffected := [] }, params }) rfl hloop

theorem nextResultSet_executed (q : BatchQuery) (h : q.executed = false) : q.nextResultSet.1.executed = false := by
  rw [nextResultSet]
  split
  · rfl
  · exact h

/-- **No call** says that the query was executed. -/
theorem Reachable.not_executed (h : Reachable q) : q.executed = false := by
  induction h with
  | refl => rfl
  | tail _ hcall ih =>
    cases hcall with
    | execute h =>
      rw [execute_query h]
      simp [ih]
    | affectedRows => exact ih
    | fetchNextRow => exact ih
    | nextResultSet => exact nextResultSet_executed _ ih
    | close => rfl

end

/-! ## Reading the counts -/

/-- So many successful calls of `NextResultSet`. -/
def nextResultSets : Nat → BatchQuery → Option BatchQuery
  | 0, q => some q
  | k + 1, q => if q.nextResultSet.2 = .success then nextResultSets k q.nextResultSet.1 else none

/-- The counts are read one after the other. -/
structure CountsEnumerated (q : BatchQuery) (counts : List Int64) : Prop where
  affected : ∀ k (h : k < counts.length), ∃ q', nextResultSets k q = some q' ∧ q'.affectedRows.toInt = max counts[k].toInt 0
  ended : ∀ q', nextResultSets (counts.length - 1) q = some q' → q'.nextResultSet.2 = .noData

/-- And no row is denied for want of an execution. -/
structure Enumerated (q : BatchQuery) (counts : List Int64) : Prop extends CountsEnumerated q counts where
  fetched : ∀ k q', k < counts.length → nextResultSets k q = some q' → notExecuted ∉ q'.fetchNextRow.2

theorem nextResultSets_of_lt {k : Nat} {q : BatchQuery} (h : q.rowsAffectedIdx + k < q.rowsAffected.length) :
    nextResultSets k q = some { q with rowsAffectedIdx := q.rowsAffectedIdx + k } := by
  induction k generalizing q with
  | zero => rfl
  | succ k ih =>
    have hmore : ¬ q.rowsAffected.length ≤ q.rowsAffectedIdx + 1 := by omega
    rw [nextResultSets, nextResultSet, if_neg hmore, if_pos rfl, ih (by simp only; omega)]
    simp only [Nat.add_assoc, Nat.add_comm 1 k]

theorem lt_of_nextResultSets {k : Nat} {q q' : BatchQuery} (h : nextResultSets (k + 1) q = some q') :
    q.rowsAffectedIdx + (k + 1) < q.rowsAffected.length := by
  induction k generalizing q with
  | zero =>
    rw [nextResultSets, nextResultSet] at h
    split at h
    · cases h
    · omega
  | succ k ih =>
    rw [nextResultSets, nextResultSet] at h
    split at h
    · cases h
    · have := ih h
      simp only at this
      omega

theorem toInt_affectedRows {q : BatchQuery} (h : q.rowsAffectedIdx < q.rowsAffected.length) :
    q.affectedRows.toInt = max q.rowsAffected[q.rowsAffectedIdx].toInt 0 := by
  have hlt : q.rowsAffected[q.rowsAffectedIdx] < 0 ↔ q.rowsAffected[q.rowsAffectedIdx].toInt < 0 := by
    rw [Int64.lt_iff_toInt_lt, Int64.toInt_zero]
  simp only [affectedRows, if_pos h, List.getD_eq_getElem?_getD, List.getElem?_eq_getElem h, Option.getD_some]
  split
  next hneg =>
    have := hlt.mp hneg
    rw [Int64.toInt_zero]
    omega
  next hneg =>
    have := mt hlt.mpr hneg
    omega

theorem affectedRows_of_ge {q : BatchQuery} (h : ¬ q.rowsAffectedIdx < q.rowsAffected.length) : q.affectedRows = 0 := by
  simp only [affectedRows, if_neg h]
  decide

theorem affectedRows_of_singleton {q : BatchQuery} {c : Int64} (h : q.rowsAffected = [c]) (hle : c.toInt ≤ 0) :
    q.affectedRows.toInt = max c.toInt 0 := by
  by_cases hidx : q.rowsAffectedIdx < q.rowsAffected.length
  · rw [toInt_affectedRows hidx]
    simp only [h, List.getElem_singleton]
  · rw [affectedRows_of_ge hidx, Int64.toInt_zero]
    omega

/-- From the index on, the counts are read in order. -/
theorem countsEnumerated_iff {q : BatchQuery} (h : q.rowsAffected ≠ []) :
    CountsEnumerated q q.rowsAffected ↔ q.rowsAffectedIdx = 0 ∨ ∃ c, q.rowsAffected = [c] ∧ c.toInt ≤ 0 := by
  have hpos : 0 < q.rowsAffected.length := List.length_pos_of_ne_nil h
  constructor
  · intro he
    cases hm : q.rowsAffected.length - 1 with
    | zero =>
      obtain ⟨c, hc⟩ := List.length_eq_one_iff.mp (by omega : q.rowsAffected.length = 1)
      by_cases hidx : q.rowsAffectedIdx = 0
      · exact .inl hidx
      · obtain ⟨q', hq', haffected⟩ := he.affected 0 hpos
        obtain rfl : q = q' := Option.some.inj hq'
        rw [affectedRows_of_ge (by rw [hc, List.length_singleton]; omega)] at haffected
        simp only [hc, List.getElem_cons_zero, Int64.toInt_zero] at haffected
        exact .inr ⟨c, hc, by omega⟩
    | succ k =>
      obtain ⟨q', hq', -⟩ := he.affected (k + 1) (by omega)
      have := lt_of_nextResultSets hq'
      exact .inl (by omega)
  · rintro (hidx | ⟨c, hc, hle⟩)
    · refine ⟨fun k hk => ?_, fun q' hq' => ?_⟩
      · refine ⟨_, nextResultSets_of_lt (by omega), ?_⟩
        rw [toInt_affectedRows (by simp only; omega)]
        simp only [hidx, Nat.zero_add]
      · rw [nextResultSets_of_lt (by omega)] at hq'
        obtain rfl := Option.some.inj hq'
        rw [nextResultSet, if_pos (by simp only; omega)]
    · have hlast : ∀ i, q.rowsAffected.length ≤ i + 1 := by
        intro i
        rw [hc, List.length_singleton]
        omega
      refine ⟨fun k hk => ?_, fun q' hq' => ?_⟩
      · obtain rfl : k = 0 := by rw [hc, List.length_singleton] at hk; omega
        refine ⟨q, rfl, ?_⟩
        simp only [affectedRows_of_singleton hc hle, hc, List.getElem_cons_zero]
      · rw [hc] at hq'
        obtain rfl : q = q' := Option.some.inj hq'
        rw [nextResultSet, if_pos (hlast _)]

/-- What was executed is read from the index on, which may stand anywhere, and
no row is fetched. -/
theorem execute_never_enumerated {maxPageSize : Int32} {reply : Nat → Reply} {q : BatchQuery} {params : ParameterSet}
    {fuel : Nat} {s : Paging} (hq : Reachable q) (h : q.execute maxPageSize reply params fuel = some s)
    (hrows : counts reply s.pages.length ≠ []) :
    ¬ Enumerated s.query (counts reply s.pages.length) ∧
      (CountsEnumerated s.query (counts reply s.pages.length) ↔
        q.rowsAffectedIdx = 0 ∨ ∃ c, counts reply s.pages.length = [c] ∧ c.toInt ≤ 0) := by
  have hquery : s.query = { q with rowsAffected := counts reply s.pages.length } := by
    rw [execute_query h]
    simp only [hq.not_executed, Bool.false_eq_true, if_false]
  have hexecuted : s.query.executed = false := by rw [hquery, ← hq.not_executed]
  refine ⟨fun he => ?_, ?_⟩
  · refine he.fetched 0 s.query (List.length_pos_of_ne_nil hrows) rfl ?_
    simp [fetchNextRow, hexecuted]
  · have hiff := countsEnumerated_iff (q := s.query) (by rwa [hquery])
    rw [hquery] at hiff ⊢
    exact hiff

/-- Executed again at the second count, the query answers with the second
count. -/
theorem execute_never_enumerated_again :
    ¬ CountsEnumerated ⟨[5, 7], 1, false⟩ [5, 7] := by
  have hfirst : execute 2 (fun _ => .response 0 [] [1, 1] [] 0) {} ⟨2, none, none⟩ 1 =
      some ⟨⟨[1, 1], 0, false⟩, ⟨2, none, none⟩, 2, [⟨0, 2, true⟩], [], .success⟩ := by decide
  have hagain : execute 2 (fun _ => .response 0 [] [5, 7] [] 0) ⟨[1, 1], 1, false⟩ ⟨2, none, none⟩ 1 =
      some ⟨⟨[5, 7], 1, false⟩, ⟨2, none, none⟩, 2, [⟨0, 2, true⟩], [], .success⟩ := by decide
  have hreached : Reachable ⟨[1, 1], 1, false⟩ := .tail (.single (.execute hfirst)) (.nextResultSet ⟨[1, 1], 0, false⟩)
  have hrows : counts (fun _ => .response 0 [] [5, 7] [] 0) 1 = [5, 7] := by decide
  obtain ⟨-, hiff⟩ := execute_never_enumerated hreached hagain (hrows ▸ List.cons_ne_nil _ _)
  rintro he
  rcases hiff.mp he with h | ⟨c, hc, -⟩
  · cases h
  · rw [List.length_singleton, hrows] at hc
    cases hc

/-- One row, one count, and its row is denied. -/
theorem execute_not_enumerated :
    ¬ ∀ (maxPageSize : Int32) (reply : Nat → Reply) (q : BatchQuery) (params : ParameterSet) (fuel : Nat) (s : Paging),
      Reachable q → q.execute maxPageSize reply params fuel = some s → succeeded s.res →
      counts reply s.pages.length ≠ [] → Enumerated s.query (counts reply s.pages.length) := by
  intro h
  have he := h 1 (fun _ => .response 0 [] [1] [] 0) {} {} 1 ⟨⟨[1], 0, false⟩, {}, 1, [⟨0, 1, true⟩], [], .success⟩
    .refl (by decide) (by decide) (by decide)
  exact he.fetched 0 ⟨[1], 0, false⟩ (by decide) rfl (by decide)

end BatchQuery

end DocumentDbOdbc
