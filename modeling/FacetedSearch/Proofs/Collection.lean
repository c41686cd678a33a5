import FacetedSearch.Criteria.Collection
import FacetedSearch.Proofs.Intents
import FacetedSearch.Proofs.Tables

/-!
# What a request gathers

The criteria of a request, said from its intents alone: the criterion of a field is what the intents on the field
make of a fresh one, and there is one for every field that some intent is on.
-/

namespace FacetedSearch

/-! ## Intents -/

namespace Intent

/-- The field of a demand on values or on presence. -/
def termField? : Intent → Option String
  | .term field _ _ => some field
  | .noValue field _ => some field
  | _ => none

def rangeField? : Intent → Option String
  | .range field _ _ => some field
  | _ => none

/-- The field that the intent filters on. -/
def field? : Intent → Option String
  | .term field _ _ => some field
  | .noValue field _ => some field
  | .range field _ _ => some field
  | _ => none

theorem field?_eq_some_iff {intent : Intent} {field : String} :
    intent.field? = some field ↔ intent.termField? = some field ∨ intent.rangeField? = some field := by
  cases intent <;> simp [field?, termField?, rangeField?]

def IsTermOn (field : String) (intent : Intent) : Prop := ∃ value negated, intent = .term field value negated

/-- The wish about presence on the field. -/
def wish? (field : String) : Intent → Option Bool
  | .noValue name negated => if name = field then some !negated else none
  | _ => none

/-- The value that is asked for on the field, or ruled out. -/
def value? (field : String) (negated : Bool) : Intent → Option String
  | .term name value other => if name = field ∧ other = negated then some value else none
  | _ => none

/-- The type that is asked for, or ruled out. -/
def docType? (negated : Bool) : Intent → Option String
  | .docType value other => if other = negated then some value else none
  | _ => none

/-- The bound on the field in the direction. -/
def literal? (field : String) (d : Bound.Direction) : Intent → Option String
  | .range name direction literal => if name = field ∧ direction = d then some literal else none
  | _ => none

variable {field : String} {intents : List Intent}

theorem mem_wishes {wish : Bool} : wish ∈ intents.filterMap (wish? field) ↔ .noValue field (!wish) ∈ intents := by
  rw [List.mem_filterMap]
  constructor
  · rintro ⟨intent, hi, hw⟩
    cases intent with
    | noValue name negated =>
        obtain ⟨rfl, rfl⟩ : name = field ∧ (!negated) = wish := by simpa [wish?] using hw
        rwa [Bool.not_not]
    | _ => cases hw
  · intro h
    exact ⟨_, h, by simp [wish?]⟩

theorem mem_values {value : String} {negated : Bool} :
    value ∈ intents.filterMap (value? field negated) ↔ .term field value negated ∈ intents := by
  rw [List.mem_filterMap]
  constructor
  · rintro ⟨intent, hi, hv⟩
    cases intent with
    | term name other otherNegated =>
        obtain ⟨⟨rfl, rfl⟩, rfl⟩ : (name = field ∧ otherNegated = negated) ∧ other = value := by simpa [value?] using hv
        exact hi
    | _ => cases hv
  · intro h
    exact ⟨_, h, by simp [value?]⟩

theorem mem_docTypes {value : String} {negated : Bool} :
    value ∈ intents.filterMap (docType? negated) ↔ .docType value negated ∈ intents := by
  rw [List.mem_filterMap]
  constructor
  · rintro ⟨intent, hi, hv⟩
    cases intent with
    | docType other otherNegated =>
        obtain ⟨rfl, rfl⟩ : otherNegated = negated ∧ other = value := by simpa [docType?] using hv
        exact hi
    | _ => cases hv
  · intro h
    exact ⟨_, h, by simp [docType?]⟩

end Intent

def TermCriterion.ask (intent : Intent) (t : TermCriterion) : TermCriterion :=
  match intent with
  | .term _ value negated => t.addTerm value negated
  | .noValue _ negated => { t with noValue := some !negated }
  | _ => t

def RangeCriterion.ask (intent : Intent) (r : RangeCriterion) : RangeCriterion :=
  match intent with
  | .range _ direction literal => r.addBound direction literal
  | _ => r

theorem TermCriterion.field_ask (intent : Intent) (t : TermCriterion) : (t.ask intent).field = t.field := by
  cases intent with
  | term field value negated => cases negated <;> rfl
  | _ => rfl

def RangeCriterion.unbounded (r : RangeCriterion) : RangeCriterion := { r with bounds := {} }

theorem RangeCriterion.unbounded_addBound (r : RangeCriterion) (d : Bound.Direction) (literal : String) :
    (r.addBound d literal).unbounded = r.unbounded := by
  rw [addBound]
  split <;> rfl

theorem RangeCriterion.field_ask (intent : Intent) (r : RangeCriterion) : (r.ask intent).field = r.field := by
  cases intent with
  | range field d literal => exact (congrArg RangeCriterion.field (r.unbounded_addBound d literal) :)
  | _ => rfl

namespace FieldView

theorem isRangeable_of_intent {view : FieldView} {p : Parameter} {field literal : String} {d : Bound.Direction}
    (h : view.intent p = .range field d literal) : view.isRangeable field = true := by
  cases reads_iff.mpr h with
  | range _ _ _ _ hrange => exact (Option.filter_eq_some_iff.mp hrange).2

variable (view : FieldView)

def intents (request : Request) : List Intent := request.map view.intent

/-- The literals that bound the field in the direction. -/
def literals (request : Request) (field : String) (d : Bound.Direction) : List String :=
  (view.intents request).filterMap (Intent.literal? field d)

theorem intents_append (request other : Request) :
    view.intents (request ++ other) = view.intents request ++ view.intents other :=
  List.map_append

def termSteps : Table.Steps Intent TermCriterion where
  key := (·.field)
  fresh := .fresh view
  name? := Intent.termField?
  change := TermCriterion.ask
  key_fresh _ := rfl
  key_change := TermCriterion.field_ask

def rangeSteps : Table.Steps Intent RangeCriterion where
  key := (·.field)
  fresh := .fresh view
  name? := Intent.rangeField?
  change := RangeCriterion.ask
  key_fresh _ := rfl
  key_change := RangeCriterion.field_ask

end FieldView

theorem TermCriterion.addOnce_eraseDups (value : String) (values : List String) :
    addOnce value values.eraseDups = (values ++ [value]).eraseDups := by
  simp only [addOnce, eraseDups_concat, List.mem_eraseDups]

theorem TermCriterion.foldl_addOnce (values : List String) :
    values.foldl (fun kept value => addOnce value kept) [] = values.eraseDups := by
  induction values using List.reverseRecOn with
  | nil => rfl
  | append_singleton values value ih => rw [List.foldl_concat, ih, addOnce_eraseDups]

namespace Criteria

variable {view : FieldView} {request : Request}

theorem requested_eq : requested view request = (view.intents request).foldl (add view) {} := by
  rw [requested, FieldView.intents, List.foldl_map]

theorem collects_fields : view.termSteps.Collects (view.intents request) (requested view request).fields := by
  have hadd : ∀ (c : Criteria) (intent : Intent),
      view.termSteps.apply c.fields intent = (c.add view intent).fields := by
    intro c intent
    cases intent with
    | docType value negated => cases negated <;> rfl
    | _ => rfl
  rw [requested_eq, ← List.foldl_hom fields hadd]
  exact view.termSteps.collects _

theorem collects_ranges : view.rangeSteps.Collects (view.intents request) (requested view request).ranges := by
  have hadd : ∀ (c : Criteria) (intent : Intent),
      view.rangeSteps.apply c.ranges intent = (c.add view intent).ranges := by
    intro c intent
    cases intent with
    | docType value negated => cases negated <;> rfl
    | _ => rfl
  rw [requested_eq, ← List.foldl_hom ranges hadd]
  exact view.rangeSteps.collects _

/-- The types come in the order in which they were first asked for, or ruled out. -/
theorem types_requested :
    (requested view request).typeTerms = ((view.intents request).filterMap (Intent.docType? false)).eraseDups ∧
      (requested view request).typeNotTerms =
        ((view.intents request).filterMap (Intent.docType? true)).eraseDups := by
  rw [requested_eq]
  induction view.intents request using List.reverseRecOn with
  | nil => exact ⟨rfl, rfl⟩
  | append_singleton intents intent ih =>
      rw [List.foldl_concat, List.filterMap_append, List.filterMap_append]
      cases intent with
      | docType value negated =>
          cases negated <;> simp [add, ih, Intent.docType?, TermCriterion.addOnce_eraseDups]
      | _ => simpa [add, changeField, changeRange, Intent.docType?, List.filterMap_cons] using ih

theorem mem_types_requested {value : String} :
    (value ∈ (requested view request).typeTerms ↔ .docType value false ∈ view.intents request) ∧
      (value ∈ (requested view request).typeNotTerms ↔ .docType value true ∈ view.intents request) := by
  rw [types_requested.1, types_requested.2, List.mem_eraseDups, List.mem_eraseDups]
  exact ⟨Intent.mem_docTypes, Intent.mem_docTypes⟩

/-- Statuses are left out by default if no intent is on the status. -/
theorem needsStatusExclusion_requested : (requested view request).needsStatusExclusion view = true ↔
    view.settings.excludedStatuses ≠ [] ∧
      ∀ intent ∈ view.intents request, intent.field? ≠ some view.settings.statusField := by
  have hterms : view.termSteps.Collects (view.intents request) (requested view request).fields := collects_fields
  have hranges : view.rangeSteps.Collects (view.intents request) (requested view request).ranges := collects_ranges
  have hnone : (∀ intent ∈ view.intents request, intent.field? ≠ some view.settings.statusField) ↔
      ¬ view.termSteps.Concerns (view.intents request) view.settings.statusField ∧
        ¬ view.rangeSteps.Concerns (view.intents request) view.settings.statusField := by
    simp only [ne_eq, Intent.field?_eq_some_iff, not_or, forall_and, Table.Steps.Concerns, not_exists, not_and]
    rfl
  rw [hnone, ← hterms.mem_keys, ← hranges.mem_keys, needsStatusExclusion]
  simp [field?, range?, FieldView.termSteps, FieldView.rangeSteps, and_assoc]

theorem ranges_ofRequest (view : FieldView) (request : Request) :
    (ofRequest view request).ranges = (requested view request).ranges := by
  rw [ofRequest, withStatusExclusion]
  split <;> rfl

theorem types_ofRequest (view : FieldView) (request : Request) :
    (ofRequest view request).typeTerms = (requested view request).typeTerms ∧
      (ofRequest view request).typeNotTerms = (requested view request).typeNotTerms := by
  rw [ofRequest, withStatusExclusion]
  split <;> exact ⟨rfl, rfl⟩

theorem mem_fields_ofRequest {t : TermCriterion} :
    t ∈ (ofRequest view request).fields ↔ t ∈ (requested view request).fields ∨
      ((requested view request).needsStatusExclusion view = true ∧ t = statusExclusion view) := by
  rw [ofRequest, withStatusExclusion]
  split
  · rename_i hn
    rw [List.mem_append, List.mem_singleton, hn]
    simp
  · rename_i hn
    simp [hn]

theorem gathered_mem_fields {field : String} (h : view.termSteps.Concerns (view.intents request) field) :
    view.termSteps.gathered field (view.intents request) ∈ (ofRequest view request).fields :=
  mem_fields_ofRequest.mpr (.inl (collects_fields.mem_iff.mpr ⟨field, h, rfl⟩))

/-- On a field that the request asks about there is no other criterion. -/
theorem eq_gathered_of_mem_fields {t : TermCriterion} (ht : t ∈ (ofRequest view request).fields)
    (h : view.termSteps.Concerns (view.intents request) t.field) :
    t = view.termSteps.gathered t.field (view.intents request) := by
  rcases mem_fields_ofRequest.mp ht with ht | ⟨hn, rfl⟩
  · exact collects_fields.item_eq t ht
  · obtain ⟨intent, hi, hf⟩ := h
    exact absurd (Intent.field?_eq_some_iff.mpr (.inl hf)) ((needsStatusExclusion_requested.mp hn).2 intent hi)

theorem mem_ranges_ofRequest {r : RangeCriterion} :
    r ∈ (ofRequest view request).ranges ↔ ∃ field, view.rangeSteps.Concerns (view.intents request) field ∧
      view.rangeSteps.gathered field (view.intents request) = r := by
  rw [ranges_ofRequest]
  exact collects_ranges.mem_iff

end Criteria

/-! ## Terms -/

namespace TermCriterion

/-- The values asked for, or those ruled out. -/
def values (t : TermCriterion) (negated : Bool) : List String := if negated then t.unwanted else t.wanted

theorem values_addTerm (t : TermCriterion) (value : String) (negated other : Bool) :
    (t.addTerm value negated).values other =
      if negated = other then addOnce value (t.values other) else t.values other := by
  cases negated <;> cases other <;> rfl

variable {view : FieldView} {field v : String} {intents : List Intent} {negated : Bool}

theorem field_gathered : (view.termSteps.gathered field intents).field = field :=
  view.termSteps.key_gathered field intents

/-- The values come in the order in which they were first named. -/
theorem values_gathered : (view.termSteps.gathered field intents).values negated =
    (intents.filterMap (Intent.value? field negated)).eraseDups := by
  induction intents using List.reverseRecOn with
  | nil => cases negated <;> rfl
  | append_singleton intents intent ih =>
      rw [Table.Steps.gathered_concat, List.filterMap_append]
      cases intent with
      | term name value other =>
          by_cases hn : name = field
          · by_cases ho : other = negated <;>
              simp [FieldView.termSteps, Intent.termField?, Intent.value?, ask, values_addTerm, hn, ho, ← ih,
                ← addOnce_eraseDups]
          · simp [FieldView.termSteps, Intent.termField?, Intent.value?, hn, ← ih]
      | noValue name other =>
          by_cases hn : name = field <;>
            simpa [FieldView.termSteps, Intent.termField?, Intent.value?, List.filterMap_cons, ask, values, hn] using ih
      | _ => simpa [FieldView.termSteps, Intent.termField?, Intent.value?, List.filterMap_cons] using ih

theorem mem_values_gathered :
    v ∈ (view.termSteps.gathered field intents).values negated ↔ .term field v negated ∈ intents := by
  rw [values_gathered, List.mem_eraseDups, Intent.mem_values]

theorem wanted_gathered : (view.termSteps.gathered field intents).wanted =
    (intents.filterMap (Intent.value? field false)).eraseDups :=
  show (view.termSteps.gathered field intents).values false = _ from values_gathered

theorem unwanted_gathered : (view.termSteps.gathered field intents).unwanted =
    (intents.filterMap (Intent.value? field true)).eraseDups :=
  show (view.termSteps.gathered field intents).values true = _ from values_gathered

theorem mem_wanted_gathered :
    v ∈ (view.termSteps.gathered field intents).wanted ↔ .term field v false ∈ intents :=
  show v ∈ (view.termSteps.gathered field intents).values false ↔ _ from mem_values_gathered

theorem mem_unwanted_gathered :
    v ∈ (view.termSteps.gathered field intents).unwanted ↔ .term field v true ∈ intents :=
  show v ∈ (view.termSteps.gathered field intents).values true ↔ _ from mem_values_gathered

theorem gathered_induction {P : TermCriterion → Prop} (hfresh : P (.fresh view field))
    (hterm : ∀ t value negated, P t → P (t.addTerm value negated))
    (hno : ∀ t wish, P t → P { t with noValue := some wish }) : P (view.termSteps.gathered field intents) := by
  apply view.termSteps.gathered_induction hfresh
  intro intent t h
  cases intent with
  | term name value negated => exact hterm t value negated h
  | noValue name negated => exact hno t (!negated) h
  | _ => exact h

theorem isImplicit_gathered : (view.termSteps.gathered field intents).isImplicit = false := by
  apply gathered_induction (P := fun t => t.isImplicit = false)
  · rfl
  · intro t value negated h
    cases negated <;> exact h
  · exact fun t wish h => h

/-- The last wish counts. -/
theorem noValue_gathered : (view.termSteps.gathered field intents).noValue =
    (intents.filterMap (Intent.wish? field)).getLast? := by
  induction intents using List.reverseRecOn with
  | nil => rfl
  | append_singleton intents intent ih =>
      rw [Table.Steps.gathered_concat, List.filterMap_append, List.getLast?_append, ← ih]
      cases intent with
      | term name value negated =>
          by_cases hn : name = field <;> cases negated <;>
            simp [FieldView.termSteps, Intent.termField?, Intent.wish?, ask, addTerm, hn]
      | noValue name negated =>
          by_cases hn : name = field <;> simp [FieldView.termSteps, Intent.termField?, Intent.wish?, ask, hn]
      | _ => simp [FieldView.termSteps, Intent.termField?, Intent.wish?]

end TermCriterion

/-! ## Ranges -/

theorem Bounds.ext_get {b c : Bounds} (h : ∀ d, b.get d = c.get d) : b = c := by
  cases b
  cases c
  simpa [Bounds.get] using ⟨h .gte, h .gt, h .lte, h .lt⟩

theorem Bounds.contains_iff_admits {b : Bounds} (h : b.gt = none ∧ b.lt = none) {v : Bound.Value} :
    b.contains v = true ↔ b.admits .gte v = true ∧ b.admits .lte v = true := by
  simp [contains, admits, get, h]

/-- Without exclusive bounds a value is compared with the other two. -/
theorem Bounds.contains_inclusive {b : Bounds} (h : b.gt = none ∧ b.lt = none) {v : Bound.Value} :
    b.contains v = true ↔
      (∀ w, b.gte = some w → (v.compare w).isGE = true) ∧ ∀ w, b.lte = some w → (v.compare w).isLE = true := by
  have hge : ∀ o : Ordering, Bound.Direction.gte.admits o = o.isGE := by decide
  have hle : ∀ o : Ordering, Bound.Direction.lte.admits o = o.isLE := by decide
  rw [contains_iff_admits h]
  simp [admits, get, hge, hle, Option.all_eq_true]

theorem isLE_compare_text {s t : String} : (compare s t).isLE = true ↔ s ≤ t := by
  change (compareOfLessAndEq s t).isLE = true ↔ _
  rw [compareOfLessAndEq]
  split
  · rename_i h
    exact iff_of_true rfl (String.lt_asymm h)
  · split
    · rename_i h
      exact iff_of_true rfl (h ▸ String.lt_irrefl s)
    · rename_i hlt hne
      exact iff_of_false (by decide) fun hle => hne (String.le_antisymm hle hlt)

theorem isGE_compare_text {s t : String} : (compare s t).isGE = true ↔ t ≤ s :=
  Std.OrientedCmp.isGE_iff_isLE.trans isLE_compare_text

namespace RangeCriterion

open FacetedSearch.Bound

/-- The bound that stays, of an earlier one if any and a new one. -/
def wider (d : Direction) (earlier : Option Value) (new : Value) : Option Value :=
  if earlier.any (isWider d · new) then earlier else some new

theorem get_addBound {r : RangeCriterion} {d e : Direction} {literal : String} : (r.addBound d literal).bounds.get e =
    if d = e then wider d (r.bounds.get d) (r.boundValue d literal) else r.bounds.get e := by
  rw [addBound, wider]
  split
  · split
    · rename_i h
      rw [h]
    · rfl
  · exact Bounds.get_set ..

/-- Of the bounds that these stand for, one that is as wide as all the others. -/
inductive Widest {α : Type} (d : Direction) (f : α → Value) (as : List α) : Option Value → Prop
  | none : as = [] → Widest d f as none
  | some {a : α} : a ∈ as → (∀ b ∈ as, isWider d (f a) (f b) = true) → Widest d f as (some (f a))

theorem widest_foldl {α : Type} {d : Direction} {f : α → Value}
    (htotal : ∀ a b, isWider d (f a) (f b) = true ∨ isWider d (f b) (f a) = true)
    (htrans : ∀ a b c, isWider d (f a) (f b) = true → isWider d (f b) (f c) = true → isWider d (f a) (f c) = true)
    (as : List α) : Widest d f as ((as.map f).foldl (wider d) none) := by
  have hrefl : ∀ a, isWider d (f a) (f a) = true := fun a => (htotal a a).elim id id
  induction as using List.reverseRecOn with
  | nil => exact .none rfl
  | append_singleton as new ih =>
      rw [List.map_append, List.map_singleton, List.foldl_concat]
      generalize (as.map f).foldl (wider d) none = kept at ih ⊢
      cases ih with
      | none h =>
          subst h
          exact .some (by simp) (by simpa using hrefl new)
      | @some a ha hall =>
          rw [wider, Option.any_some]
          split
          · rename_i hw
            refine .some (List.mem_append_left _ ha) fun b hb => ?_
            rcases List.mem_append.mp hb with hb | hb
            · exact hall b hb
            · exact List.mem_singleton.mp hb ▸ hw
          · rename_i hw
            have hnew : isWider d (f new) (f a) = true := (htotal a new).resolve_left hw
            refine .some (List.mem_append_right _ (List.mem_singleton_self new)) fun b hb => ?_
            rcases List.mem_append.mp hb with hb | hb
            · exact htrans _ _ _ hnew (hall b hb)
            · exact List.mem_singleton.mp hb ▸ hrefl new

variable {view : FieldView} {field : String} {intents : List Intent}

theorem gathered_induction {P : RangeCriterion → Prop} (hfresh : P (.fresh view field))
    (hbound : ∀ r d literal, P r → P (r.addBound d literal)) : P (view.rangeSteps.gathered field intents) := by
  apply view.rangeSteps.gathered_induction hfresh
  intro intent r h
  cases intent with
  | range name d literal => exact hbound r d literal h
  | _ => exact h

theorem unbounded_gathered : (view.rangeSteps.gathered field intents).unbounded = fresh view field := by
  apply gathered_induction (P := fun r => r.unbounded = fresh view field)
  · rfl
  · exact fun r d literal h => (r.unbounded_addBound d literal).trans h

theorem isDate_gathered : (view.rangeSteps.gathered field intents).isDate = view.isDate field :=
  (congrArg RangeCriterion.isDate unbounded_gathered :)

theorem boundValue_gathered (d : Direction) (literal : String) :
    (view.rangeSteps.gathered field intents).boundValue d literal = (fresh view field).boundValue d literal := by
  rw [boundValue, boundValue, isDate_gathered]
  rfl

/-- The bound in one direction, from the literals in that direction alone. -/
theorem get_gathered (d : Direction) : (view.rangeSteps.gathered field intents).bounds.get d =
    ((intents.filterMap (Intent.literal? field d)).map ((fresh view field).boundValue d)).foldl (wider d) none := by
  induction intents using List.reverseRecOn generalizing d with
  | nil => cases d <;> rfl
  | append_singleton intents intent ih =>
      rw [Table.Steps.gathered_concat, List.filterMap_append, List.map_append, List.foldl_append]
      split
      · rename_i hn
        cases intent with
        | range name direction literal =>
            cases hn
            refine get_addBound.trans ?_
            rw [boundValue_gathered, ih direction, ← ih d]
            by_cases he : direction = d
            · subst he
              simp [Intent.literal?, ih direction]
            · simp [Intent.literal?, he]
        | _ => cases hn
      · rename_i hn
        have hnone : Intent.literal? field d intent = none := by
          cases intent with
          | range name direction literal =>
              have : ¬ name = field := fun he => hn (congrArg some he)
              simp [Intent.literal?, this]
          | _ => rfl
        rw [ih d, List.filterMap_cons_none hnone, List.filterMap_nil, List.map_nil, List.foldl_nil]

theorem eq_of_unbounded {r s : RangeCriterion} (hu : r.unbounded = s.unbounded) (hb : r.bounds = s.bounds) : r = s :=
  calc
    r = { r.unbounded with bounds := r.bounds } := rfl
    _ = { s.unbounded with bounds := s.bounds } := by rw [hu, hb]
    _ = s := rfl

theorem literals_exclusive {request : Request} {d : Direction} (hd : d = .gt ∨ d = .lt) :
    view.literals request field d = [] := by
  refine List.filterMap_eq_nil_iff.mpr fun intent hi => ?_
  obtain ⟨p, -, rfl⟩ := List.mem_map.mp hi
  cases hp : view.intent p with
  | range name direction literal =>
      have hdirection := (FieldView.reads_iff.mpr hp).direction_eq
      have hne : direction ≠ d := by rintro rfl; rcases hd with rfl | rfl <;> simp at hdirection
      simp [Intent.literal?, hne]
  | _ => rfl

/-- The range on a field that a request asks for, from the literals of the request. -/
theorem get_ofRequest {request : Request} {r : RangeCriterion} (hr : r ∈ (Criteria.ofRequest view request).ranges)
    (d : Direction) : r.bounds.get d =
      ((view.literals request r.field d).map ((fresh view r.field).boundValue d)).foldl (wider d) none := by
  obtain ⟨field, -, rfl⟩ := Criteria.mem_ranges_ofRequest.mp hr
  have hfield : (view.rangeSteps.gathered field (view.intents request)).field = field :=
    view.rangeSteps.key_gathered field _
  rw [hfield]
  exact get_gathered d

theorem unbounded_ofRequest {request : Request} {r : RangeCriterion}
    (hr : r ∈ (Criteria.ofRequest view request).ranges) : r.unbounded = fresh view r.field := by
  obtain ⟨field, -, rfl⟩ := Criteria.mem_ranges_ofRequest.mp hr
  have hfield : (view.rangeSteps.gathered field (view.intents request)).field = field :=
    view.rangeSteps.key_gathered field _
  rw [hfield]
  exact unbounded_gathered

theorem exclusive_ofRequest {request : Request} {r : RangeCriterion}
    (hr : r ∈ (Criteria.ofRequest view request).ranges) : r.bounds.gt = none ∧ r.bounds.lt = none := by
  have hgt : r.bounds.get .gt = none := by rw [get_ofRequest hr, literals_exclusive (.inl rfl)]; rfl
  have hlt : r.bounds.get .lt = none := by rw [get_ofRequest hr, literals_exclusive (.inr rfl)]; rfl
  exact ⟨hgt, hlt⟩

/-! ## Ranges on dates -/

theorem isWider_text {d : Direction} {s t : String} : isWider d (.text s) (.text t) = true ↔
    if d.isLower then (compare s t).isLE = true else (compare t s).isLE = true := by
  rw [isWider]
  split
  · exact Iff.rfl
  · change (compare s t).isGE = true ↔ _
    exact Std.OrientedCmp.isGE_iff_isLE

theorem isWider_trans {d : Direction} {s t u : String} (hst : isWider d (.text s) (.text t) = true)
    (htu : isWider d (.text t) (.text u) = true) : isWider d (.text s) (.text u) = true := by
  rw [isWider_text] at *
  split at hst
  · rename_i hd
    rw [if_pos hd] at *
    exact Std.TransCmp.isLE_trans hst htu
  · rename_i hd
    rw [if_neg hd] at *
    exact Std.TransCmp.isLE_trans htu hst

theorem isWider_total (d : Direction) (s t : String) :
    isWider d (.text s) (.text t) = true ∨ isWider d (.text t) (.text s) = true := by
  rw [isWider_text, isWider_text, Std.OrientedOrd.eq_swap (a := t)]
  cases compare s t <;> cases d.isLower <;> simp

theorem isWider_antisymm {d : Direction} {s t : String} (hst : isWider d (.text s) (.text t) = true)
    (hts : isWider d (.text t) (.text s) = true) : s = t := by
  rw [isWider_text, Std.OrientedOrd.eq_swap (a := t)] at hst hts
  have he : compare s t = .eq := by
    cases hc : compare s t <;> cases hd : d.isLower <;> simp [hc, hd] at hst hts ⊢
  exact Std.LawfulEqOrd.eq_of_compare he

theorem admits_text_iff {d : Direction} {x t : String} : d.admits ((Value.text x).compare (.text t)) = true ↔
    match d with
    | .gte => t ≤ x
    | .gt => ¬ x ≤ t
    | .lte => x ≤ t
    | .lt => ¬ t ≤ x := by
  have hgte : ∀ o : Ordering, Direction.gte.admits o = o.isGE := by decide
  have hgt : ∀ o : Ordering, Direction.gt.admits o = !o.isLE := by decide
  have hlte : ∀ o : Ordering, Direction.lte.admits o = o.isLE := by decide
  have hlt : ∀ o : Ordering, Direction.lt.admits o = !o.isGE := by decide
  change d.admits (compare x t) = true ↔ _
  cases d with
  | gte => rw [hgte, isGE_compare_text]
  | gt => rw [hgt, Bool.not_eq_true', ← Bool.not_eq_true, isLE_compare_text]
  | lte => rw [hlte, isLE_compare_text]
  | lt => rw [hlt, Bool.not_eq_true', ← Bool.not_eq_true, isGE_compare_text]

/-- What satisfies a bound satisfies any wider one. -/
theorem admits_of_isWider {d : Direction} {x t u : String} (hwider : isWider d (.text t) (.text u) = true)
    (hu : d.admits ((Value.text x).compare (.text u)) = true) :
    d.admits ((Value.text x).compare (.text t)) = true := by
  rw [isWider_text, isLE_compare_text, isLE_compare_text] at hwider
  rw [admits_text_iff] at hu ⊢
  cases d with
  | gte => exact String.le_trans hwider hu
  | gt => exact fun hx => hu (String.le_trans hx hwider)
  | lte => exact String.le_trans hu hwider
  | lt => exact fun hx => hu (String.le_trans hwider hx)

/-- The widest of several bounds is satisfied where one of them is. -/
theorem admits_iff_of_widest {b : Bounds} {d : Direction} {ts : List String} (h : Widest d .text ts (b.get d))
    {x : String} : b.admits d (.text x) = true ↔
      ts = [] ∨ ∃ t ∈ ts, d.admits ((Value.text x).compare (.text t)) = true := by
  rw [Bounds.admits]
  generalize b.get d = v at h
  cases h with
  | none h => exact iff_of_true rfl (.inl h)
  | @some t ht hall =>
      rw [Option.all_some, or_iff_right (List.ne_nil_of_mem ht)]
      exact ⟨fun h => ⟨t, ht, h⟩, fun ⟨u, hu, h⟩ => admits_of_isWider (hall u hu) h⟩

/-- The bounds of a date are texts, and the widest of them is the same in any order. -/
theorem foldl_wider_text_perm {d : Direction} {ss ts : List String} (h : ss.Perm ts) :
    (ss.map Value.text).foldl (wider d) none = (ts.map Value.text).foldl (wider d) none := by
  have hs := widest_foldl (isWider_total d) (fun _ _ _ => isWider_trans) ss
  have ht := widest_foldl (isWider_total d) (fun _ _ _ => isWider_trans) ts
  generalize (ss.map Value.text).foldl (wider d) none = s at hs ⊢
  generalize (ts.map Value.text).foldl (wider d) none = t at ht ⊢
  cases hs with
  | none hs =>
      subst hs
      cases ht with
      | none _ => rfl
      | some hb _ => exact absurd (h.mem_iff.mpr hb) List.not_mem_nil
  | some ha hall =>
      cases ht with
      | none ht => exact absurd (ht ▸ h.mem_iff.mp ha) List.not_mem_nil
      | some hb hall' => rw [isWider_antisymm (hall _ (h.mem_iff.mpr hb)) (hall' _ (h.mem_iff.mp ha))]

theorem get_gathered_date (hd : view.isDate field = true) (d : Direction) :
    (view.rangeSteps.gathered field intents).bounds.get d =
      (((intents.filterMap (Intent.literal? field d)).map (completeDay · d)).map Value.text).foldl (wider d) none := by
  have hvalue : (fresh view field).boundValue d = fun literal => .text (completeDay literal d) := by
    funext literal
    exact if_pos hd
  rw [get_gathered, hvalue, List.map_map]
  rfl

/-- On dates the order of the bounds does not matter. -/
theorem gathered_perm (hd : view.isDate field = true) {others : List Intent} (h : intents.Perm others) :
    view.rangeSteps.gathered field intents = view.rangeSteps.gathered field others := by
  refine eq_of_unbounded (unbounded_gathered.trans unbounded_gathered.symm) (Bounds.ext_get fun d => ?_)
  rw [get_gathered_date hd, get_gathered_date hd]
  exact foldl_wider_text_perm ((h.filterMap _).map _)

end RangeCriterion

end FacetedSearch
