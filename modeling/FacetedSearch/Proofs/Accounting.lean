import Mathlib.Algebra.Ring.Nat
import Mathlib.Data.List.Induction
import Mathlib.Data.String.Basic
import FacetedSearch.Proofs.Tables
import FacetedSearch.Search.Session

/-!
# Accounting of calls

What the metrics hold after any run of calls, said from the answers of the calls alone. Every successful compilation
is counted and so is every failure of a compilation or a check; a query string that cannot be read and a failing
compound search leave no trace.
-/

namespace FacetedSearch

/-! ## Counts by code -/

namespace Metrics

/-- The count of one code; a code that has not been counted has no entry. -/
def failureCount (m : Metrics) (code : String) : Nat := (Table.find? code m.failures).getD 0

def failureTotal (m : Metrics) : Nat := (m.failures.map Prod.snd).sum

variable {name other : String} {counts : List (String × Nat)}

theorem sum_increment (name : String) (counts : List (String × Nat)) :
    ((increment name counts).map Prod.snd).sum = (counts.map Prod.snd).sum + 1 := by
  fun_induction increment name counts with
  | case1 => rfl
  | case2 n rest => simp only [List.map_cons, List.sum_cons]; omega
  | case3 k n rest => simp only [List.map_cons, List.sum_cons]; omega
  | case4 k n rest _ _ ih => simp only [List.map_cons, List.sum_cons, ih]; omega

theorem mem_names_increment :
    other ∈ Table.names (increment name counts) ↔ other = name ∨ other ∈ Table.names counts := by
  unfold Table.names
  fun_induction increment name counts with
  | case1 => simp
  | case2 n rest => simp
  | case3 k n rest => simp
  | case4 k n rest _ _ ih =>
      simp only [List.map_cons, List.mem_cons, ih]
      exact or_left_comm

/-- Codes stay in order, so none of them is listed twice. -/
theorem ordered_increment (h : (Table.names counts).Pairwise (· < ·)) :
    (Table.names (increment name counts)).Pairwise (· < ·) := by
  fun_induction increment name counts with
  | case1 => exact List.pairwise_singleton _ _
  | case2 n rest => exact h
  | case3 k n rest _ hlt =>
      refine List.pairwise_cons.mpr ⟨fun other ho => ?_, h⟩
      rcases List.mem_cons.mp ho with rfl | ho
      · exact hlt
      · exact lt_trans hlt ((List.pairwise_cons.mp h).1 other ho)
  | case4 k n rest hne hlt ih =>
      obtain ⟨hfirst, hrest⟩ := List.pairwise_cons.mp h
      refine List.pairwise_cons.mpr ⟨fun other ho => ?_, ih hrest⟩
      rcases mem_names_increment.mp ho with rfl | ho
      · exact lt_of_le_of_ne (not_lt.mp hlt) (Ne.symm hne)
      · exact hfirst other ho

theorem find?_increment (h : (Table.names counts).Pairwise (· < ·)) :
    Table.find? other (increment name counts) =
      if name = other then some ((Table.find? other counts).getD 0 + 1) else Table.find? other counts := by
  fun_induction increment name counts with
  | case1 => rfl
  | case2 n rest => by_cases ho : name = other <;> simp [Table.find?, ho]
  | case3 k n rest hne hlt =>
      -- a code before the first one listed is not listed at all
      have habsent : Table.find? name ((k, n) :: rest) = none := by
        refine Table.find?_eq_none_iff.mpr fun hm => ?_
        rcases List.mem_cons.mp hm with he | hm
        · exact hne he
        · exact lt_asymm hlt ((List.pairwise_cons.mp h).1 name hm)
      rw [Table.find?]
      split
      · rename_i ho
        rw [← ho, habsent]
        rfl
      · rfl
  | case4 k n rest hne _ ih =>
      rw [Table.find?, Table.find?, ih (List.pairwise_cons.mp h).2]
      by_cases hk : k = other
      · simp [hk, hk ▸ hne]
      · simp [hk]

/-- What has been counted: these failures, and compilations with these numbers of facets. -/
structure Accounts (m : Metrics) (failures : List Failure) (facets : List Nat) : Prop where
  ordered : (Table.names m.failures).Pairwise (· < ·)
  total : m.failureTotal = failures.length
  byCode : ∀ code, m.failureCount code = failures.countP (·.code = code)
  violations : m.violations = failures.countP (·.isSecurityEvent)
  compiled : m.compiled = facets.length
  facetCounts : m.facetCounts = facets

namespace Accounts

variable {m : Metrics} {failures : List Failure} {facets : List Nat}

theorem empty : Accounts {} [] [] := ⟨.nil, rfl, fun _ => rfl, rfl, rfl, rfl⟩

theorem recordCompilation (h : m.Accounts failures facets) (n : Nat) :
    (m.recordCompilation n).Accounts failures (facets ++ [n]) where
  ordered := h.ordered
  total := h.total
  byCode := h.byCode
  violations := h.violations
  compiled := by rw [List.length_append, ← h.compiled]; rfl
  facetCounts := by rw [← h.facetCounts]; rfl

theorem recordFailure (h : m.Accounts failures facets) (failure : Failure) :
    (m.recordFailure failure).Accounts (failures ++ [failure]) facets where
  ordered := ordered_increment h.ordered
  total := by rw [List.length_append, ← h.total]; exact sum_increment _ _
  byCode code := by
    rw [List.countP_append, ← h.byCode, failureCount, Metrics.recordFailure]
    dsimp only
    rw [find?_increment h.ordered]
    by_cases hc : failure.code = code
    · simp [hc, failureCount]
    · simp [hc, failureCount]
  violations := by
    rw [List.countP_append, ← h.violations, Metrics.recordFailure]
    dsimp only
    cases hs : failure.isSecurityEvent <;> simp [hs]
  compiled := h.compiled
  facetCounts := h.facetCounts

end Accounts

end Metrics

/-! ## Calls -/

/-- Whether a failure of the call is counted. -/
def Call.isCounted : Call → Bool
  | .compile .. => true
  | .compileQueryString query .. => (Request.ofQueryString query).isOk
  | .compileCompound .. => false
  | .verify .. => true

def Call.isCompilation : Call → Bool
  | .compile .. => true
  | .compileQueryString .. => true
  | _ => false

namespace Compiler

variable (c : Compiler) (m : Metrics)

/-- What the call answers, metrics or not. -/
def answer : Call → Except Failure Answer
  | .compile request types principals declared => (c.compile request types principals declared).map .search
  | .compileQueryString query types principals declared =>
    (c.compileQueryString query types principals declared).map .search
  | .compileCompound search types principals => (c.compileCompound search types principals).map .filter
  | .verify filter principals => (c.guard.verify filter principals).map fun _ => .verified

def failure? (call : Call) : Option Failure :=
  match c.answer call with
  | .ok _ => none
  | .error failure => some failure

/-- Whether the call fails, with a failure of the given kind. -/
def failsWith (kind : Failure → Bool) (call : Call) : Bool := (c.failure? call).any kind

def facetCount? (call : Call) : Option Nat :=
  match c.answer call with
  | .ok (.search s) => some s.facets.length
  | _ => none

theorem call_answer (call : Call) : (c.call m call).1 = c.answer call := by
  cases call with
  | compileQueryString query types principals declared =>
      rw [call, answer, compileQueryString]
      cases Request.ofQueryString query <;> rfl
  | _ => rfl

/-- What one answer does to the metrics of a call whose failures count. -/
theorem recordOutcome_eq (outcome : Except Failure CompiledSearch) : m.recordOutcome outcome =
    match outcome.map Answer.search with
    | .ok (.search s) => m.recordCompilation s.facets.length
    | .ok _ => m
    | .error failure => m.recordFailure failure := by
  cases outcome <;> rfl

/-- What one call does to the metrics, whatever they hold. -/
theorem call_metrics (call : Call) : (c.call m call).2 =
    match c.answer call with
    | .ok (.search s) => m.recordCompilation s.facets.length
    | .ok _ => m
    | .error failure => if call.isCounted then m.recordFailure failure else m := by
  cases call with
  | compile request types principals declared => exact recordOutcome_eq m _
  | compileQueryString query types principals declared =>
      rw [call, answer, compileQueryString, Call.isCounted]
      cases hr : Request.ofQueryString query with
      | error failure => rfl
      | ok request => exact recordOutcome_eq m _
  | compileCompound search types principals =>
      rw [call, answer, Call.isCounted]
      cases c.compileCompound search types principals <;> rfl
  | verify filter principals =>
      rw [call, answer, Call.isCounted]
      cases c.guard.verify filter principals <;> rfl

theorem accounts_metricsAfter (calls : List Call) : (c.metricsAfter {} calls).Accounts
    ((calls.filter Call.isCounted).filterMap c.failure?) (calls.filterMap c.facetCount?) := by
  induction calls using List.reverseRecOn with
  | nil => exact .empty
  | append_singleton calls call ih =>
      rw [metricsAfter, List.foldl_concat, ← metricsAfter, call_metrics]
      simp only [List.filter_append, List.filterMap_append]
      cases ha : c.answer call with
      | error failure =>
          cases hc : call.isCounted with
          | false => simpa [hc, facetCount?, ha] using ih
          | true => simpa [hc, facetCount?, failure?, ha] using ih.recordFailure failure
      | ok result =>
          have hf : (List.filter Call.isCounted [call]).filterMap c.failure? = [] := by
            cases hc : call.isCounted <;> simp [hc, failure?, ha]
          cases result with
          | search s => simpa [hf, facetCount?, ha] using ih.recordCompilation s.facets.length
          | filter q => simpa [hf, facetCount?, ha] using ih
          | verified => simpa [hf, facetCount?, ha] using ih

/-- The failures of a kind are those that count and those that do not. -/
theorem countP_failures (calls : List Call) (kind : Failure → Bool) :
    ((calls.filter Call.isCounted).filterMap c.failure?).countP kind +
      (calls.filter (!·.isCounted)).countP (c.failsWith kind) = calls.countP (c.failsWith kind) := by
  have hfailures : ∀ calls : List Call, (calls.filterMap c.failure?).countP kind = calls.countP (c.failsWith kind) := by
    intro calls
    rw [List.countP_filterMap]
    refine List.countP_congr fun call _ => ?_
    rw [failsWith]
    cases c.failure? call <;> simp
  rw [hfailures]
  exact (List.countP_eq_countP_filter_add calls _ Call.isCounted).symm

theorem length_facetCounts (calls : List Call) : (calls.filterMap c.facetCount?).length =
    calls.countP fun call => call.isCompilation && !c.failsWith (fun _ => true) call := by
  rw [List.length_filterMap_eq_countP]
  refine List.countP_congr fun call _ => ?_
  simp only [facetCount?, failsWith, failure?]
  cases call with
  | compile request types principals declared =>
      rw [answer]
      cases c.compile request types principals declared <;> simp [Except.map, Call.isCompilation]
  | compileQueryString query types principals declared =>
      rw [answer]
      cases c.compileQueryString query types principals declared <;> simp [Except.map, Call.isCompilation]
  | compileCompound search types principals =>
      rw [answer]
      cases c.compileCompound search types principals <;> simp [Except.map, Call.isCompilation]
  | verify filter principals =>
      rw [answer]
      cases c.guard.verify filter principals <;> simp [Except.map, Call.isCompilation]

/-- Metrics change no answer, and after any run of calls they hold every successful compilation and every failure but
those of unreadable query strings and of compound searches. -/
theorem metrics_account_for_calls (c : Compiler) (calls : List Call) :
    let m := c.metricsAfter {} calls
    let failures (kind : Failure → Bool) := calls.countP (c.failsWith kind)
    let uncounted (kind : Failure → Bool) := (calls.filter (!·.isCounted)).countP (c.failsWith kind)
    let compiled := calls.countP fun call => call.isCompilation && !c.failsWith (fun _ => true) call
    (∀ m call, (c.call m call).1 = c.answer call) ∧
      m.failureTotal + uncounted (fun _ => true) = failures (fun _ => true) ∧
      (∀ code, m.failureCount code + uncounted (·.code = code) = failures (·.code = code)) ∧
      m.violations + uncounted (·.isSecurityEvent) = failures (·.isSecurityEvent) ∧
      m.compiled = compiled ∧ m.facetCounts.length = compiled := by
  intro m failures uncounted compiled
  have h : m.Accounts _ _ := c.accounts_metricsAfter calls
  have hcompiled := c.length_facetCounts calls
  have hfacets : m.facetCounts.length = compiled := (congrArg List.length h.facetCounts).trans hcompiled
  refine ⟨c.call_answer, ?_, fun code => ?_, ?_, h.compiled.trans hcompiled, hfacets⟩
  · rw [h.total, ← List.countP_true]
    exact c.countP_failures calls _
  · rw [h.byCode]
    exact c.countP_failures calls _
  · rw [h.violations]
    exact c.countP_failures calls _

/-- A query string that is no text and a compound search under a foreign permission clause both fail, the second one
as a security event, and nothing is counted. -/
theorem uncounted_failures :
    let c : Compiler := ⟨{ permissionField := "embedded.sex.raw" }, ⟨fun _ _ => none⟩⟩
    let calls : List Call := [
      .compileQueryString "a=%ff" [] ["system.Everyone"] [],
      .compileCompound { blocks := [{ query := "sex=F" }] } [] ["system.Everyone"]]
    calls.countP (c.failsWith fun _ => true) = 2 ∧ calls.countP (c.failsWith (·.isSecurityEvent)) = 1 ∧
      c.metricsAfter {} calls = {} := by
  decide +kernel

end Compiler

end FacetedSearch
