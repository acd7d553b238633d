/-
What a run of a type query delivers when the JDBC driver may fail.

The types that are known after a request are a list of those it read, whether
it read them all or not (`makeRequest_reads`). A run makes requests until one
has left a type, and `Execute` always succeeds; so it delivers the whole list
exactly when every request was answered to its end
(`execute_completeOrError_iff`).
-/
import DocumentDbOdbc.TypeInfoQuery
import Mathlib.Data.List.Infix

namespace DocumentDbOdbc

open Effect

/-! ## What is read -/

/-- The type is one of those asked for. -/
def Asked (requested : Int16) (t : Int) : Prop := requested = 0 ∨ sqlTypeOf t = requested.toInt

/-- The single type that was asked for, at which reading ends. -/
def Sought (requested : Int16) (t : Int) : Prop := requested ≠ 0 ∧ sqlTypeOf t = requested.toInt

instance (requested : Int16) (t : Int) : Decidable (Sought requested t) := inferInstanceAs (Decidable (_ ∧ _))

namespace TypeRow

/-- The types that are read before the end, or before a failure. -/
def types (requested : Int16) : List TypeRow → List Int
  | [] | .nextFails _ :: _ | .getIntFails _ :: _ => []
  | .row dataType :: rows =>
    if Sought requested (binaryType dataType) then [binaryType dataType]
    else binaryType dataType :: types requested rows

/-- There is no failure before the end. -/
def whole (requested : Int16) : List TypeRow → Bool
  | [] => true
  | .nextFails _ :: _ | .getIntFails _ :: _ => false
  | .row dataType :: rows => decide (Sought requested (binaryType dataType)) || whole requested rows

end TypeRow

namespace TypeInfoRequest

def types (requested : Int16) : TypeInfoRequest → List Int
  | .getMetaDataFails _ | .getTypeInfoFails _ => []
  | .resultSet rows => TypeRow.types requested rows

def whole (requested : Int16) : TypeInfoRequest → Bool
  | .getMetaDataFails _ | .getTypeInfoFails _ => false
  | .resultSet rows => TypeRow.whole requested rows

end TypeInfoRequest

/-- A list of the types asked for: all of them, and none twice. -/
structure TypeList (requested : Int16) (types list : List Int) : Prop where
  asked : ∀ t ∈ list, t ∈ types ∧ Asked requested t
  complete : ∀ t ∈ types, Asked requested t → ∃ u ∈ list, sqlTypeOf u = sqlTypeOf t
  distinct : ∀ t ∈ list, ∀ u ∈ list, sqlTypeOf t = sqlTypeOf u → t = u
  nodup : list.Nodup

/-- Nothing was asked for. -/
theorem typeList_nil_iff {requested : Int16} {types : List Int} :
    TypeList requested types [] ↔ ∀ t ∈ types, ¬ Asked requested t := by
  refine ⟨fun h t ht ha => ?_, fun h => ⟨by simp, fun t ht ha => absurd ha (h t ht), by simp, .nil⟩⟩
  obtain ⟨u, hu, -⟩ := h.complete t ht ha
  cases hu

theorem TypeList.eq_nil {requested : Int16} {types list : List Int} (h : TypeList requested types list)
    (hnone : ∀ t ∈ types, ¬ Asked requested t) : list = [] :=
  List.eq_nil_iff_forall_not_mem.mpr fun t ht => hnone t (h.asked t ht).1 (h.asked t ht).2

namespace TypeInfoQuery

/-! ## Reading -/

/-- The two sets belong together. -/
def Matched (q : TypeInfoQuery) : Prop := ∀ x, x ∈ q.sqlTypes ↔ ∃ t ∈ q.binaryTypes, sqlTypeOf t = x

/-- The query lists what was read so far. -/
structure Reads (q : TypeInfoQuery) (seen : List Int) : Prop where
  list : TypeList q.requestedSqlType seen q.binaryTypes.toList
  matched : q.Matched

section

variable {q : TypeInfoQuery} {seen : List Int} {t : Int}

theorem Reads.skip (h : q.Reads seen) (ht : sqlTypeOf t ∈ q.sqlTypes ∨ ¬ Asked q.requestedSqlType t) :
    q.Reads (seen ++ [t]) where
  list :=
    { asked := fun u hu => ⟨List.mem_append_left _ (h.list.asked u hu).1, (h.list.asked u hu).2⟩
      complete := by
        intro u hu ha
        rcases List.mem_append.mp hu with hu | hu
        · exact h.list.complete u hu ha
        · obtain rfl := List.mem_singleton.mp hu
          obtain ⟨v, hv, hsql⟩ := (h.matched _).mp (ht.resolve_right fun hn => hn ha)
          exact ⟨v, hv, hsql⟩
      distinct := h.list.distinct
      nodup := h.list.nodup }
  matched := h.matched

theorem Reads.emplace (h : q.Reads seen) (ht : sqlTypeOf t ∉ q.sqlTypes) (ha : Asked q.requestedSqlType t) :
    (q.emplace t (sqlTypeOf t)).Reads (seen ++ [t]) := by
  have hnew : ∀ u ∈ q.binaryTypes, sqlTypeOf u ≠ sqlTypeOf t := fun u hu he => ht ((h.matched _).mpr ⟨u, hu, he⟩)
  refine ⟨⟨fun u hu => ?_, fun u hu hasked => ?_, fun u hu v hv he => ?_, ?_⟩, fun x => ?_⟩
  · rcases SortedSet.mem_emplace.mp (SortedSet.mem_toList.mp hu) with rfl | hu
    · exact ⟨by simp, ha⟩
    · exact ⟨List.mem_append_left _ (h.list.asked u hu).1, (h.list.asked u hu).2⟩
  · rcases List.mem_append.mp hu with hu | hu
    · obtain ⟨v, hv, hsql⟩ := h.list.complete u hu hasked
      exact ⟨v, SortedSet.mem_emplace.mpr (.inr hv), hsql⟩
    · obtain rfl := List.mem_singleton.mp hu
      exact ⟨u, SortedSet.mem_emplace.mpr (.inl rfl), rfl⟩
  · rcases SortedSet.mem_emplace.mp (SortedSet.mem_toList.mp hu) with rfl | hu' <;>
      rcases SortedSet.mem_emplace.mp (SortedSet.mem_toList.mp hv) with rfl | hv'
    · rfl
    · exact absurd he.symm (hnew v hv')
    · exact absurd he (hnew u hu')
    · exact h.list.distinct u hu' v hv' he
  · exact (q.emplace t (sqlTypeOf t)).binaryTypes.ordered.imp ne_of_lt
  · simp only [TypeInfoQuery.emplace, SortedSet.mem_emplace, h.matched x]
    constructor
    · rintro (rfl | ⟨u, hu, hsql⟩)
      · exact ⟨t, .inl rfl, rfl⟩
      · exact ⟨u, .inr hu, hsql⟩
    · rintro ⟨u, rfl | hu, hsql⟩
      · exact .inl hsql.symm
      · exact .inr ⟨u, hu, hsql⟩

/-- **The loop** lists what it reads, and says whether it read on to the end. -/
theorem readTypes_reads (h : q.Reads seen) (hnone : q.requestedSqlType ≠ 0 → q.binaryTypes.toList = [])
    (rows : List TypeRow) :
    (q.readTypes rows).1.requestedSqlType = q.requestedSqlType ∧
      (q.readTypes rows).1.Reads (seen ++ TypeRow.types q.requestedSqlType rows) ∧
      (q.readTypes rows).2.value = .ok (if TypeRow.whole q.requestedSqlType rows then .success else .error) := by
  induction rows generalizing q seen with
  | nil =>
    refine ⟨rfl, ?_, rfl⟩
    rw [TypeRow.types, List.append_nil]
    exact h
  | cons row rows ih =>
    cases row with
    | nextFails text | getIntFails text =>
      refine ⟨rfl, ?_, rfl⟩
      rw [TypeRow.types, List.append_nil]
      exact h
    | row dataType =>
      rw [readTypes, TypeRow.types, TypeRow.whole]
      generalize TypeRow.binaryType dataType = t
      have hsplit : ∀ types : List Int, seen ++ t :: types = (seen ++ [t]) ++ types := by simp
      split
      next hmem =>
        -- a type is known, so all are asked for
        have hall : q.requestedSqlType = 0 := by
          by_contra hne
          obtain ⟨u, hu, -⟩ := (h.matched _).mp hmem
          rw [← SortedSet.mem_toList, hnone hne] at hu
          cases hu
        have hsought : ¬ Sought q.requestedSqlType t := fun hs => hs.1 hall
        rw [if_neg hsought, decide_eq_false hsought, Bool.false_or, hsplit]
        exact ih (h.skip (.inl hmem)) hnone
      next hnew =>
        split
        next hall =>
          have hsought : ¬ Sought q.requestedSqlType t := fun hs => hs.1 hall
          rw [if_neg hsought, decide_eq_false hsought, Bool.false_or, hsplit]
          exact ih (h.emplace hnew (.inl hall)) (fun hne => absurd hall hne)
        next hone =>
          split
          next hfound =>
            have hsought : Sought q.requestedSqlType t := ⟨hone, hfound.symm⟩
            rw [if_pos hsought, decide_eq_true hsought]
            exact ⟨rfl, h.emplace hnew (.inr hfound.symm), rfl⟩
          next hother =>
            have hsought : ¬ Sought q.requestedSqlType t := fun hs => hother hs.2.symm
            rw [if_neg hsought, decide_eq_false hsought, Bool.false_or, hsplit]
            refine ih (h.skip (.inr ?_)) hnone
            rintro (ha | ha)
            · exact hone ha
            · exact hother ha.symm

/-- **A request** where nothing is known lists what it read, and its result
says whether that was everything. -/
theorem makeRequest_reads (h : q.Matched) (hnone : q.binaryTypes.toList = []) (r : TypeInfoRequest) :
    (q.makeRequestGetTypeInfo r).1.requestedSqlType = q.requestedSqlType ∧
      (q.makeRequestGetTypeInfo r).1.Reads (r.types q.requestedSqlType) ∧
      (q.makeRequestGetTypeInfo r).2.value = .ok (if r.whole q.requestedSqlType then .success else .error) := by
  have hreads : q.Reads [] := ⟨by rw [hnone, typeList_nil_iff]; simp, h⟩
  cases r with
  | getMetaDataFails text | getTypeInfoFails text => exact ⟨rfl, hreads, rfl⟩
  | resultSet rows => exact readTypes_reads hreads (fun _ => hnone) rows

end

/-! ## Fetching -/

/-- The bound columns of a type, one after the other. -/
def deliver (P : Platform) (binaryType : Int) (columnBindings : ColumnBindingMap) : List Nat → Action SqlResult
  | [] => pure .success
  | i :: is =>
    match columnBindings (UInt16.ofNat i) with
    | none => deliver P binaryType columnBindings is
    | some b => do
      let _ ← putColumn P binaryType (UInt16.ofNat i) b
      deliver P binaryType columnBindings is

/-- The fetch of the type that is next, or of none. -/
def fetchOf (P : Platform) (columnBindings : ColumnBindingMap) : Option Int → Action SqlResult
  | none => pure .noData
  | some binaryType => deliver P binaryType columnBindings MetadataQuery.bindingKeys

/-- The fetches deliver these types in order, and then none. -/
def Delivers (P : Platform) (q : TypeInfoQuery) (rows : List Int) : Prop :=
  ∀ (before : List ColumnBindingMap) (columnBindings : ColumnBindingMap),
    ((q.run P (before.map .fetchNextRow)).fetchNextRow P columnBindings).2 = fetchOf P columnBindings rows[before.length]?

/-- The iterator is where `k` fetches bring it. -/
structure StandsAt (q : TypeInfoQuery) (rows : List Int) (k : Nat) : Prop where
  executed : q.executed = true
  rows_eq : q.binaryTypes.toList = rows
  fetched_iff : q.fetched = true ↔ k ≠ 0
  cursor_eq : q.cursor = min (k - 1) rows.length

section

variable {P : Platform} {q : TypeInfoQuery} {rows : List Int} {k : Nat}

theorem StandsAt.moveCursor (h : q.StandsAt rows k) : q.moveCursor.StandsAt rows (k + 1) := by
  have hcursor := h.cursor_eq
  rw [TypeInfoQuery.moveCursor]
  by_cases hk : k = 0
  · have hf : q.fetched = false := by
      rw [← Bool.not_eq_true, h.fetched_iff]
      exact fun hne => hne hk
    rw [hf, Bool.not_false, if_pos rfl]
    refine ⟨h.executed, h.rows_eq, by simp, ?_⟩
    simp only
    omega
  · have hf : q.fetched = true := h.fetched_iff.mpr hk
    rw [hf, Bool.not_true, if_neg Bool.false_ne_true, h.rows_eq]
    split
    · refine ⟨h.executed, h.rows_eq, ⟨fun _ => by omega, fun _ => rfl⟩, ?_⟩
      simp only
      omega
    · refine ⟨h.executed, h.rows_eq, ⟨fun _ => by omega, fun _ => hf⟩, ?_⟩
      omega

theorem StandsAt.getColumns_eq (h : q.StandsAt rows (k + 1)) {row : Int} (hrow : rows[k]? = some row)
    (columnBindings : ColumnBindingMap) (is : List Nat) :
    q.getColumns P columnBindings is = deliver P row columnBindings is := by
  have hlt := (List.getElem?_eq_some_iff.mp hrow).1
  have hcursor : q.cursor = k := by
    have := h.cursor_eq
    omega
  induction is with
  | nil => rfl
  | cons i is ih =>
    rw [getColumns, deliver]
    cases columnBindings (UInt16.ofNat i) with
    | none => exact ih
    | some b =>
      simp only [getColumn, h.executed, Bool.not_true, Bool.false_eq_true, if_false, h.rows_eq, hcursor, hrow, ih]

/-- One fetch. -/
theorem StandsAt.fetchNextRow (h : q.StandsAt rows k) (columnBindings : ColumnBindingMap) :
    (q.fetchNextRow P columnBindings).1.StandsAt rows (k + 1) ∧
      (q.fetchNextRow P columnBindings).2 = fetchOf P columnBindings rows[k]? := by
  have h' := h.moveCursor
  have hcursor := h'.cursor_eq
  rw [TypeInfoQuery.fetchNextRow, h.executed, Bool.not_true, if_neg Bool.false_ne_true]
  dsimp only
  rw [h'.rows_eq]
  cases hrow : rows[k]? with
  | none =>
    have hle := List.getElem?_eq_none_iff.mp hrow
    rw [if_pos (by omega)]
    exact ⟨h', rfl⟩
  | some row =>
    have hlt := (List.getElem?_eq_some_iff.mp hrow).1
    rw [if_neg (by omega)]
    refine ⟨h', ?_⟩
    dsimp only [fetchOf]
    rw [h'.getColumns_eq hrow]

theorem StandsAt.fetches (h : q.StandsAt rows k) (before : List ColumnBindingMap) :
    (q.run P (before.map .fetchNextRow)).StandsAt rows (k + before.length) := by
  induction before generalizing q k with
  | nil => exact h
  | cons columnBindings before ih =>
    have hnext := ih (h.fetchNextRow (P := P) columnBindings).1
    rw [List.length_cons, Nat.add_comm before.length 1, ← Nat.add_assoc]
    exact hnext

theorem StandsAt.delivers (h : q.StandsAt rows 0) : Delivers P q rows := by
  intro before columnBindings
  have hstands := h.fetches (P := P) before
  rw [Nat.zero_add] at hstands
  exact (hstands.fetchNextRow columnBindings).2

/-- The first fetch tells no types from some. -/
theorem Delivers.nil_iff (h : Delivers P q rows) {rows' : List Int} (h' : Delivers P q rows') : rows = [] ↔ rows' = [] := by
  have hfirst := (h [] fun _ => none).symm.trans (h' [] fun _ => none)
  have hdeliver : ∀ (row : Int) (is : List Nat), deliver P row (fun _ => none) is = pure .success := by
    intro row is
    induction is with
    | nil => rfl
    | cons i is ih => exact ih
  cases rows <;> cases rows' <;> simp [fetchOf, hdeliver] at hfirst ⊢ <;> cases congrArg Eff.value hfirst

end

/-! ## Requests -/

/-- The request a call makes, if it makes one. -/
def made (q : TypeInfoQuery) : Call → List TypeInfoRequest
  | .execute r => if q.binaryTypes.toList = [] then [r] else []
  | .fetchNextRow _ | .getColumn _ _ | .close => []

/-- The requests a run makes. -/
def requests (P : Platform) (q : TypeInfoQuery) : List Call → List TypeInfoRequest
  | [] => []
  | call :: calls => q.made call ++ requests P (q.step P call) calls

/-- Of what a request read nothing was asked for. -/
def NothingAsked (requested : Int16) (r : TypeInfoRequest) : Prop := ∀ t ∈ r.types requested, ¬ Asked requested t

/-- The types that are known are those of the last request; the others left
none. -/
inductive Known (requested : Int16) (known : List Int) : List TypeInfoRequest → Prop
  | unread (h : known = []) : Known requested known []
  | last {before r} (hbefore : ∀ r' ∈ before, NothingAsked requested r')
    (hlist : TypeList requested (r.types requested) known) : Known requested known (before ++ [r])

/-- What holds of a query that has made these requests. -/
structure Made (requested : Int16) (q : TypeInfoQuery) (reqs : List TypeInfoRequest) : Prop where
  requested_eq : q.requestedSqlType = requested
  matched : q.Matched
  known : Known requested q.binaryTypes.toList reqs

section

variable {P : Platform} {requested : Int16} {q : TypeInfoQuery} {reqs : List TypeInfoRequest}

theorem requests_append (calls calls' : List Call) :
    requests P q (calls ++ calls') = requests P q calls ++ requests P (q.run P calls) calls' := by
  induction calls generalizing q with
  | nil => rfl
  | cons call calls ih => rw [List.cons_append, requests, requests, ih, List.append_assoc]; rfl

theorem Known.nothingAsked (h : Known requested [] reqs) : ∀ r ∈ reqs, NothingAsked requested r := by
  cases h with
  | unread => simp
  | last hbefore hlist =>
    intro r hr
    rcases List.mem_append.mp hr with hr | hr
    · exact hbefore r hr
    · obtain rfl := List.mem_singleton.mp hr
      exact typeList_nil_iff.mp hlist

/-- An execution makes the request where nothing is known, and starts at the
first type. -/
theorem Made.execute (h : Made requested q reqs) (r : TypeInfoRequest) :
    Made requested (q.execute r).1 (reqs ++ q.made (.execute r)) ∧
      (q.execute r).1.StandsAt (q.execute r).1.binaryTypes.toList 0 := by
  refine ⟨?_, rfl, rfl, by simp [TypeInfoQuery.execute], by simp [TypeInfoQuery.execute]⟩
  by_cases hnone : q.binaryTypes.toList = []
  · obtain ⟨hrequested, hreads, -⟩ := makeRequest_reads h.matched hnone r
    have hknown := h.known
    rw [hnone] at hknown
    rw [made, if_pos hnone, TypeInfoQuery.execute, if_pos (List.length_eq_zero_iff.mpr hnone)]
    rw [h.requested_eq] at hrequested hreads
    refine ⟨hrequested, hreads.matched, .last hknown.nothingAsked ?_⟩
    have hlist := hreads.list
    rwa [hrequested] at hlist
  · rw [made, if_neg hnone, List.append_nil, TypeInfoQuery.execute,
      if_neg (fun hlength => hnone (List.length_eq_zero_iff.mp hlength))]
    exact ⟨h.requested_eq, h.matched, h.known⟩

theorem fetchNextRow_types (q : TypeInfoQuery) (columnBindings : ColumnBindingMap) :
    let q' := (q.fetchNextRow P columnBindings).1
    q'.requestedSqlType = q.requestedSqlType ∧ q'.binaryTypes = q.binaryTypes ∧ q'.sqlTypes = q.sqlTypes := by
  have hmove : q.moveCursor.requestedSqlType = q.requestedSqlType ∧ q.moveCursor.binaryTypes = q.binaryTypes ∧
      q.moveCursor.sqlTypes = q.sqlTypes := by
    unfold moveCursor
    split
    · exact ⟨rfl, rfl, rfl⟩
    · split <;> exact ⟨rfl, rfl, rfl⟩
  unfold fetchNextRow
  split
  · exact ⟨rfl, rfl, rfl⟩
  · dsimp only
    split <;> exact hmove

/-- One call. -/
theorem Made.step (h : Made requested q reqs) (call : Call) :
    Made requested (q.step P call) (reqs ++ q.made call) := by
  cases call with
  | execute r => exact (h.execute r).1
  | fetchNextRow columnBindings =>
    obtain ⟨hrequested, hbinary, hsql⟩ := fetchNextRow_types (P := P) q columnBindings
    rw [made, List.append_nil]
    refine ⟨hrequested.trans h.requested_eq, fun x => ?_, ?_⟩
    · rw [TypeInfoQuery.step, hbinary, hsql]
      exact h.matched x
    · rw [TypeInfoQuery.step, hbinary]
      exact h.known
  | getColumn columnIdx b =>
    rw [made, List.append_nil]
    exact h
  | close =>
    rw [made, List.append_nil]
    exact ⟨h.requested_eq, h.matched, h.known⟩

/-- A run. -/
theorem run_made (P : Platform) (requested : Int16) (calls : List Call) :
    Made requested (({ requestedSqlType := requested } : TypeInfoQuery).run P calls)
      (requests P { requestedSqlType := requested } calls) := by
  suffices h : ∀ q reqs, Made requested q reqs → Made requested (q.run P calls) (reqs ++ requests P q calls) from
    h _ [] ⟨rfl, fun x => by simp, .unread rfl⟩
  induction calls with
  | nil =>
    intro q reqs h
    rw [requests, List.append_nil]
    exact h
  | cons call calls ih =>
    intro q reqs h
    rw [requests, ← List.append_assoc]
    exact ih _ _ (h.step call)

end

/-! ## Executions -/

/-- After these calls and an execution: some request of the run read everything,
and the rows are its list. -/
def Delivered (P : Platform) (requested : Int16) (calls : List Call) (r : TypeInfoRequest) : Prop :=
  ∃ r' ∈ requests P { requestedSqlType := requested } (calls ++ [.execute r]), r'.whole requested ∧
    ∃ rows, TypeList requested (r'.types requested) rows ∧
      Delivers P (({ requestedSqlType := requested } : TypeInfoQuery).run P (calls ++ [.execute r])) rows

/-- The execution after these calls succeeds only with the whole list; and it
does not fail to deliver it on account of a request before that failed. -/
structure CompleteOrError (P : Platform) (requested : Int16) (calls : List Call) (r : TypeInfoRequest) : Prop where
  complete : ((({ requestedSqlType := requested } : TypeInfoQuery).run P calls).execute r).2.value = .ok .success →
    Delivered P requested calls r
  recovers : (∃ r' ∈ requests P { requestedSqlType := requested } calls, r'.whole requested = false) →
    (∀ r' ∈ (({ requestedSqlType := requested } : TypeInfoQuery).run P calls).made (.execute r), r'.whole requested) →
    Delivered P requested calls r

/-- The request read everything; or it failed before anything that was asked
for, and one before it had read everything. -/
def Answered (requested : Int16) (before : List TypeInfoRequest) (r : TypeInfoRequest) : Prop :=
  r.whole requested ∨ (∃ r' ∈ before, r'.whole requested) ∧ NothingAsked requested r

section

variable {P : Platform} {requested : Int16} {calls : List Call} {r : TypeInfoRequest}

/-- `Execute` always succeeds. -/
theorem execute_success (q : TypeInfoQuery) (h : q.Matched) (r : TypeInfoRequest) :
    (q.execute r).2.value = .ok .success := by
  have hrequest : ∃ res, (if q.binaryTypes.toList.length = 0 then q.makeRequestGetTypeInfo r
      else (q, pure .success)).2.value = .ok res := by
    split
    next hnone => exact ⟨_, (makeRequest_reads h (List.length_eq_zero_iff.mp hnone) r).2.2⟩
    next => exact ⟨_, rfl⟩
  obtain ⟨res, hres⟩ := hrequest
  rw [TypeInfoQuery.execute, bind_of_ok hres]
  rfl

/-- So it is right just if it delivers. -/
theorem completeOrError_iff : CompleteOrError P requested calls r ↔ Delivered P requested calls r :=
  ⟨fun h => h.complete (execute_success _ (run_made P requested calls).matched r), fun h => ⟨fun _ => h, fun _ _ => h⟩⟩

/-- An execution delivers the list of the last request that was made; so that
request has to be answered. -/
theorem delivered_iff {before : List TypeInfoRequest} {last : TypeInfoRequest}
    (h : requests P { requestedSqlType := requested } (calls ++ [.execute r]) = before ++ [last]) :
    Delivered P requested calls r ↔ Answered requested before last := by
  obtain ⟨hmade, hstands⟩ := (run_made P requested calls).execute r
  have hrun : (({ requestedSqlType := requested } : TypeInfoQuery).run P (calls ++ [.execute r])) =
      ((({ requestedSqlType := requested } : TypeInfoQuery).run P calls).execute r).1 := by
    rw [run, List.foldl_append]
    rfl
  have hknown := (run_made P requested (calls ++ [.execute r])).known
  rw [Delivered, h]
  rw [h, hrun] at hknown
  rw [hrun]
  generalize ((({ requestedSqlType := requested } : TypeInfoQuery).run P calls).execute r).1 = q at hstands hknown
  have hdelivers : Delivers P q q.binaryTypes.toList := hstands.delivers
  generalize q.binaryTypes.toList = known at hknown hdelivers
  generalize hreqs : before ++ [last] = reqs at hknown
  cases hknown with
  | unread => simp at hreqs
  | @last before' last' hbefore hlist =>
    obtain ⟨rfl, rfl⟩ : before = before' ∧ last = last' := by simpa using List.append_inj' hreqs rfl
    constructor
    · rintro ⟨r', hr', hwhole, rows, hrows, hrowsDelivered⟩
      rcases List.mem_append.mp hr' with hr' | hr'
      · obtain rfl := hrows.eq_nil (hbefore r' hr')
        obtain rfl := (hdelivers.nil_iff hrowsDelivered).mpr rfl
        exact .inr ⟨⟨r', hr', hwhole⟩, typeList_nil_iff.mp hlist⟩
      · obtain rfl := List.mem_singleton.mp hr'
        exact .inl hwhole
    · rintro (hwhole | ⟨⟨r', hr', hwhole⟩, hnothing⟩)
      · exact ⟨last, by simp, hwhole, known, hlist, hdelivers⟩
      · obtain rfl := hlist.eq_nil hnothing
        exact ⟨r', by simp [hr'], hwhole, [], typeList_nil_iff.mpr (hbefore r' hr'), hdelivers⟩

/-- A request was made by some execution. -/
theorem exists_execute {reqs : List TypeInfoRequest} {last : TypeInfoRequest} {q : TypeInfoQuery}
    (h : reqs ++ [last] <+: requests P q calls) :
    ∃ before, before ++ [.execute last] <+: calls ∧ requests P q (before ++ [.execute last]) = reqs ++ [last] := by
  induction calls using List.reverseRecOn with
  | nil =>
    have hnil := List.prefix_nil.mp h
    simp at hnil
  | append_singleton calls call ih =>
    rw [requests_append, requests, requests, List.append_nil] at h
    cases call with
    | execute r =>
      rw [made] at h
      split at h
      next hnone =>
        rcases List.prefix_concat_iff.mp h with heq | h
        · obtain ⟨rfl, rfl⟩ : reqs = requests P q calls ∧ last = r := by simpa using List.append_inj' heq rfl
          refine ⟨calls, List.prefix_rfl, ?_⟩
          rw [requests_append, requests, requests, List.append_nil, made, if_pos hnone]
        · obtain ⟨before, hbefore, hreqs⟩ := ih h
          exact ⟨before, hbefore.trans (List.prefix_append _ _), hreqs⟩
      next =>
        rw [List.append_nil] at h
        obtain ⟨before, hbefore, hreqs⟩ := ih h
        exact ⟨before, hbefore.trans (List.prefix_append _ _), hreqs⟩
    | fetchNextRow | getColumn | close =>
      rw [made, List.append_nil] at h
      obtain ⟨before, hbefore, hreqs⟩ := ih h
      exact ⟨before, hbefore.trans (List.prefix_append _ _), hreqs⟩

/-- An execution has made a request, or one before it has. -/
theorem exists_last (P : Platform) (requested : Int16) (calls : List Call) (r : TypeInfoRequest) :
    ∃ before last, requests P { requestedSqlType := requested } (calls ++ [.execute r]) = before ++ [last] := by
  have h := run_made P requested calls
  rw [requests_append, requests, requests, List.append_nil, made]
  split
  · exact ⟨_, r, rfl⟩
  next hsome =>
    have hknown := h.known
    generalize requests P { requestedSqlType := requested } calls = reqs at hknown
    cases hknown with
    | unread hnone => exact absurd hnone hsome
    | @last before last => exact ⟨before, last, List.append_nil _⟩

end

/-- **Type information** is complete or an error exactly where every request of
the run was answered. -/
theorem execute_completeOrError_iff (P : Platform) (requested : Int16) (calls : List Call) :
    (∀ before r, before ++ [.execute r] <+: calls → CompleteOrError P requested before r) ↔
      ∀ before r, before ++ [r] <+: requests P { requestedSqlType := requested } calls → Answered requested before r := by
  constructor
  · intro h reqs last hprefix
    obtain ⟨before, hbefore, hreqs⟩ := exists_execute hprefix
    exact (delivered_iff hreqs).mp (completeOrError_iff.mp (h before last hbefore))
  · intro h before r hprefix
    obtain ⟨reqs, last, hreqs⟩ := exists_last P requested before r
    refine completeOrError_iff.mpr ((delivered_iff hreqs).mpr (h reqs last ?_))
    obtain ⟨rest, rfl⟩ := hprefix
    rw [requests_append, hreqs]
    exact List.prefix_append _ _

/-- A type, and then `Next` fails: success, with one type. -/
theorem execute_not_complete :
    ¬ ∀ (requested : Int16) (calls : List Call) (r : TypeInfoRequest), CompleteOrError .unixOdbc requested calls r := by
  intro h
  obtain ⟨r', hr', hwhole, -⟩ := (h 0 [] (.resultSet [.row 4, .nextFails (ascii "closed")])).complete (by decide)
  obtain rfl := List.mem_singleton.mp hr'
  exact absurd hwhole (by decide)

end TypeInfoQuery

end DocumentDbOdbc
