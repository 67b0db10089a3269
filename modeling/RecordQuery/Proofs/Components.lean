import RecordQuery.Proofs.Checks

/-! # Calls that change different components

Criteria have components, and every call names those that it changes: a page with a size changes the
extras and the limit, any other call a single one.  What a call does is found from its arguments
alone (`Criteria.apply_eq_perform`), so whether it fails does not depend on the criteria it is made
on.  A call leaves the components that it does not name (`content_advance_of_not_touches`), and on
one that it names it acts by what that component held (`content_advance_congr`).  Hence what a run
makes of a component depends only on the calls that name it (`content_run_filter`), and two runs
with the same calls for every component, in the same order for each, end in the same criteria
(`run_eq_of_filter_eq`).

A call that changes an option may as well check all options anew (`Criteria.applyAnew`).  Reachable
criteria have options that pass, so this makes no difference to them (`applyAnew_eq`).  All of it is
in `components_independent`. -/

namespace RecordQuery

/-- What comes out of a step that cannot fail was put into it. -/
theorem exists_of_map_eq_ok {ε α β : Type} {x : Except ε α} {f : α → β} {b : β}
    (h : x.map f = .ok b) : ∃ a, x = .ok a ∧ f a = b := by
  cases x with
  | error e => exact nomatch h
  | ok a => exact ⟨a, rfl, Except.ok.inj h⟩

namespace Criteria

/-! ### Components -/

/-- What calls change in criteria. -/
inductive Component where
  | selector
  | skip
  | limit
  | sort
  | projection
  | extras
  | documents
  deriving DecidableEq, Repr

/-- What a component holds. -/
def Component.Content : Component → Type
  | .selector => Dict
  | .skip | .limit => Option Int
  | .sort => Option (Arrangement Value)
  | .projection | .documents => List Value
  | .extras => Extras

/-- What criteria hold in a component. -/
def content (c : Criteria) : (k : Component) → k.Content
  | .selector => c.selector
  | .skip => c.options.skip
  | .limit => c.options.limit
  | .sort => c.options.sort
  | .projection => c.options.fields
  | .extras => c.extras
  | .documents => c.documents

/-- Criteria are what their components hold, with their collection and their settings. -/
theorem ext_content {c d : Criteria} (h : ∀ k, c.content k = d.content k)
    (hcollection : c.collection = d.collection) (hsettings : c.settings = d.settings) : c = d := by
  obtain ⟨docs, selector, ⟨skip, limit, sort, fields⟩, extras, collection, settings⟩ := c
  obtain rfl : docs = _ := h .documents
  obtain rfl : selector = _ := h .selector
  obtain rfl : extras = _ := h .extras
  obtain rfl : skip = _ := h .skip
  obtain rfl : limit = _ := h .limit
  obtain rfl : sort = _ := h .sort
  obtain rfl : fields = _ := h .projection
  obtain rfl : collection = _ := hcollection
  obtain rfl : settings = _ := hsettings
  rfl

/-- The criteria in which one component holds what is made of what it held. -/
def modify (c : Criteria) : (k : Component) → (k.Content → k.Content) → Criteria
  | .selector, g => { c with selector := g c.selector }
  | .skip, g => { c with options := { c.options with skip := g c.options.skip } }
  | .limit, g => { c with options := { c.options with limit := g c.options.limit } }
  | .sort, g => { c with options := { c.options with sort := g c.options.sort } }
  | .projection, g => { c with options := { c.options with fields := g c.options.fields } }
  | .extras, g => { c with extras := g c.extras }
  | .documents, g => { c with documents := g c.documents }

theorem content_modify_self (c : Criteria) (k : Component) (g : k.Content → k.Content) :
    (c.modify k g).content k = g (c.content k) := by
  cases k <;> rfl

theorem content_modify_of_ne (c : Criteria) {k l : Component} (h : l ≠ k)
    (g : k.Content → k.Content) : (c.modify k g).content l = c.content l := by
  cases k <;> cases l <;> first | rfl | exact absurd rfl h

theorem modify_settings (c : Criteria) (k : Component) (g : k.Content → k.Content) :
    (c.modify k g).settings = c.settings := by
  cases k <;> rfl

theorem modify_collection (c : Criteria) (k : Component) (g : k.Content → k.Content) :
    (c.modify k g).collection = c.collection := by
  cases k <;> rfl

/-! ### What a call changes -/

/-- A change of one component, which may look at the settings. -/
structure Change where
  component : Component
  make : Settings → component.Content → component.Content

/-- The criteria after some changes, made one after the other. -/
def perform (c : Criteria) (changes : List Change) : Criteria :=
  changes.foldl (fun c change => c.modify change.component (change.make c.settings)) c

namespace Step

/-- The components that a call changes. -/
def components : Step → List Component
  | .filter .. | .ids _ => [.selector]
  | .only _ => [.projection]
  | .skip _ => [.skip]
  | .limit _ => [.limit]
  | .orderBy _ => [.sort]
  | .extras _ => [.extras]
  | .paginate .. => [.extras, .limit]
  | .documents _ => [.documents]

/-- Whether a call changes a component. -/
def touches (step : Step) (k : Component) : Bool := step.components.contains k

/-- What a call changes, or how it fails, found from its arguments alone. -/
def changes : Step → Except Fault (List Change)
  | .filter conditions named => do
    let named ← named.checkNamed "Criteria.where" filterParameters
    let conditions ← conditions.entriesOrNone
    return [⟨.selector, fun _ selector => Dict.merge (Dict.merge selector conditions) named⟩]
  | .only fields => .ok [⟨.projection, fun _ _ => fields⟩]
  | .skip count => (Options.checkSkip count).map fun skip => [⟨.skip, fun _ _ => skip⟩]
  | .limit count => (Options.checkLimit count).map fun limit => [⟨.limit, fun _ _ => limit⟩]
  | .orderBy ordering => (Options.checkSort ordering).map fun sort => [⟨.sort, fun _ _ => sort⟩]
  | .extras hints => (Extras.ofValue hints).map fun extras => [⟨.extras, fun _ _ => extras⟩]
  | .paginate page perPage => do
    let extras ← Extras.check page
    let limit ← Options.checkLimit perPage
    return [⟨.extras, fun _ _ => extras⟩, ⟨.limit, fun _ before => limit.or before⟩]
  | .documents sources => sources.items.map fun docs => [⟨.documents, fun _ _ => docs⟩]
  | .ids sought => .ok [⟨.selector, fun settings selector =>
      Dict.merge selector [(.text settings.idField, Identity.expectation sought)]⟩]

/-- A call changes the components that are named for it, and no others. -/
theorem components_of_changes {step : Step} {changes : List Change}
    (h : step.changes = .ok changes) : changes.map (·.component) = step.components := by
  cases step with
  | only fields => cases h; rfl
  | ids sought => cases h; rfl
  | filter conditions named =>
      obtain ⟨named, -, h⟩ := exists_of_bind_eq_ok h
      obtain ⟨conditions, -, h⟩ := exists_of_bind_eq_ok h
      cases h
      rfl
  | paginate page perPage =>
      obtain ⟨extras, -, h⟩ := exists_of_bind_eq_ok h
      obtain ⟨limit, -, h⟩ := exists_of_bind_eq_ok h
      cases h
      rfl
  | _ =>
      obtain ⟨checked, -, rfl⟩ := exists_of_map_eq_ok h
      rfl

end Step

/-- Asking for a page checks its number and its size before anything is changed; a size that is
null leaves the limit. -/
theorem paginate_eq (c : Criteria) (page perPage : Value) : c.paginate page perPage = do
    let extras ← Extras.check page
    let limit ← Options.checkLimit perPage
    return { c with extras, options := { c.options with limit := limit.or c.options.limit } } := by
  by_cases hnull : perPage = .null
  · subst hnull
    unfold paginate
    cases Extras.check page <;> rfl
  · have hlimit : c.paginate page perPage =
        Extras.check page >>= fun extras => limit { c with extras } perPage := by
      cases perPage with
      | null => exact absurd rfl hnull
      | _ => rfl
    rw [hlimit]
    unfold limit
    cases hcount : Options.checkLimit perPage with
    | error e => cases Extras.check page <;> rfl
    | ok count =>
        cases count with
        | none => exact absurd (Options.checkCount_eq_ok_iff.mp hcount).1 hnull
        | some n => cases Extras.check page <;> rfl

/-- A call does to criteria what its arguments say. -/
theorem apply_eq_perform (c : Criteria) (step : Step) :
    c.apply step = step.changes.map c.perform := by
  cases step with
  | filter conditions named =>
      show c.filter conditions named = _
      rw [filter, Step.changes]
      cases named.checkNamed "Criteria.where" filterParameters with
      | error e => rfl
      | ok named => cases conditions.entriesOrNone <;> rfl
  | only fields => rfl
  | skip count =>
      show c.skip count = _
      rw [skip, Step.changes]
      cases Options.checkSkip count <;> rfl
  | limit count =>
      show c.limit count = _
      rw [limit, Step.changes]
      cases Options.checkLimit count <;> rfl
  | orderBy ordering =>
      show c.orderBy ordering = _
      rw [orderBy, Step.changes]
      cases Options.checkSort ordering <;> rfl
  | extras hints =>
      show c.withExtras hints = _
      rw [withExtras, Step.changes]
      cases Extras.ofValue hints <;> rfl
  | paginate page perPage =>
      show c.paginate page perPage = _
      rw [paginate_eq, Step.changes]
      cases Extras.check page with
      | error e => rfl
      | ok extras => cases Options.checkLimit perPage <;> rfl
  | documents sources =>
      show c.withDocuments sources = _
      rw [withDocuments, Step.changes]
      cases sources.items <;> rfl
  | ids sought => rfl

/-- Whether and how a call fails does not depend on the criteria it is made on. -/
theorem apply_eq_error_iff {c : Criteria} {step : Step} {e : Fault} :
    c.apply step = .error e ↔ step.changes = .error e := by
  rw [apply_eq_perform]
  cases step.changes with
  | error e' =>
      show Except.error e' = _ ↔ _
      rw [Except.error.injEq, Except.error.injEq]
  | ok changes => exact ⟨nofun, nofun⟩

/-! ### One call -/

theorem perform_settings (c : Criteria) (changes : List Change) :
    (c.perform changes).settings = c.settings := by
  unfold perform
  induction changes generalizing c with
  | nil => rfl
  | cons change changes ih => rw [List.foldl_cons, ih, modify_settings]

theorem perform_collection (c : Criteria) (changes : List Change) :
    (c.perform changes).collection = c.collection := by
  unfold perform
  induction changes generalizing c with
  | nil => rfl
  | cons change changes ih => rw [List.foldl_cons, ih, modify_collection]

theorem content_perform_of_not_mem {k : Component} (c : Criteria) {changes : List Change}
    (hk : k ∉ changes.map (·.component)) : (c.perform changes).content k = c.content k := by
  unfold perform
  induction changes generalizing c with
  | nil => rfl
  | cons change changes ih =>
      rw [List.map_cons, List.mem_cons, not_or] at hk
      rw [List.foldl_cons, ih _ hk.2, content_modify_of_ne c hk.1]

theorem content_perform_congr {c d : Criteria} (hsettings : c.settings = d.settings)
    {k : Component} (hk : c.content k = d.content k) (changes : List Change) :
    (c.perform changes).content k = (d.perform changes).content k := by
  unfold perform
  induction changes generalizing c d with
  | nil => exact hk
  | cons change changes ih =>
      refine ih (by rw [modify_settings, modify_settings, hsettings]) ?_
      by_cases h : k = change.component
      · subst h
        rw [content_modify_self, content_modify_self, hsettings, hk]
      · rw [content_modify_of_ne c h, content_modify_of_ne d h, hk]

theorem advance_settings (c : Criteria) (step : Step) : (c.advance step).settings = c.settings := by
  unfold advance
  rw [apply_eq_perform]
  cases step.changes with
  | error e => rfl
  | ok changes => exact c.perform_settings changes

theorem advance_collection (c : Criteria) (step : Step) :
    (c.advance step).collection = c.collection := by
  unfold advance
  rw [apply_eq_perform]
  cases step.changes with
  | error e => rfl
  | ok changes => exact c.perform_collection changes

/-- A call leaves the components that it does not change. -/
theorem content_advance_of_not_touches (c : Criteria) {step : Step} {k : Component}
    (hk : step.touches k = false) : (c.advance step).content k = c.content k := by
  unfold advance
  rw [apply_eq_perform]
  cases h : step.changes with
  | error e => rfl
  | ok changes =>
      refine content_perform_of_not_mem c ?_
      rw [Step.components_of_changes h]
      unfold Step.touches at hk
      simpa using hk

/-- What a call makes of a component depends on what this component holds, and on the settings. -/
theorem content_advance_congr {c d : Criteria} (hsettings : c.settings = d.settings)
    {k : Component} (hk : c.content k = d.content k) (step : Step) :
    (c.advance step).content k = (d.advance step).content k := by
  unfold advance
  rw [apply_eq_perform, apply_eq_perform]
  cases step.changes with
  | error e => exact hk
  | ok changes => exact content_perform_congr hsettings hk changes

/-! ### A run of calls -/

theorem run_cons (c : Criteria) (step : Step) (steps : List Step) :
    c.run (step :: steps) = (c.advance step).run steps := rfl

theorem run_settings (c : Criteria) (steps : List Step) : (c.run steps).settings = c.settings := by
  induction steps generalizing c with
  | nil => rfl
  | cons step steps ih => rw [run_cons, ih, advance_settings]

theorem run_collection (c : Criteria) (steps : List Step) :
    (c.run steps).collection = c.collection := by
  induction steps generalizing c with
  | nil => rfl
  | cons step steps ih => rw [run_cons, ih, advance_collection]

/-- What a run makes of a component depends only on the calls that change it. -/
theorem content_run_filter {c d : Criteria} (hsettings : c.settings = d.settings) {k : Component}
    (hk : c.content k = d.content k) (steps : List Step) :
    (c.run steps).content k = (d.run (steps.filter (·.touches k))).content k := by
  induction steps generalizing c d with
  | nil => exact hk
  | cons step steps ih =>
      rw [List.filter_cons]
      cases htouches : step.touches k with
      | true =>
          rw [if_pos rfl, run_cons, run_cons]
          exact ih (by rw [advance_settings, advance_settings, hsettings])
            (content_advance_congr hsettings hk step)
      | false =>
          rw [if_neg Bool.false_ne_true, run_cons]
          exact ih (by rw [advance_settings, hsettings])
            (by rw [content_advance_of_not_touches c htouches, hk])

/-- Runs with the same calls for each component, in the same order, end in the same criteria. -/
theorem run_eq_of_filter_eq (c : Criteria) {steps others : List Step}
    (h : ∀ k : Component, steps.filter (·.touches k) = others.filter (·.touches k)) :
    c.run steps = c.run others := by
  refine ext_content (fun k => ?_) ?_ ?_
  · rw [content_run_filter rfl rfl steps, h k, ← content_run_filter rfl rfl others]
  · rw [run_collection, run_collection]
  · rw [run_settings, run_settings]

/-! ### Checking everything anew -/

/-- The criteria with another value for one option, where all options are checked anew. -/
def withOption (c : Criteria) (name : Options.Name) (v : Value) : Except Fault Criteria :=
  (c.options.replace name v).map fun options => { c with options }

/-- Makes one call, where a call that changes an option checks all of them anew. -/
def applyAnew (c : Criteria) : Step → Except Fault Criteria
  | .only fields => c.withOption .fields (.tuple fields)
  | .skip count => c.withOption .skip count
  | .limit count => c.withOption .limit count
  | .orderBy ordering => c.withOption .sort ordering
  | .paginate page perPage => do
    let paged := { c with extras := ← Extras.check page }
    match perPage with
    | .null => return paged
    | perPage => paged.withOption .limit perPage
  | step => c.apply step

/-- Makes calls one after the other, each checking all options anew; a failing one changes
nothing. -/
def runAnew (c : Criteria) (steps : List Step) : Criteria :=
  steps.foldl (fun c step => match c.applyAnew step with
    | .ok next => next
    | .error _ => c) c

theorem withOption_skip {c : Criteria} (hv : c.options.Valid) (count : Value) :
    c.withOption .skip count = c.skip count := by
  unfold withOption skip
  rw [hv.replace_skip]
  cases Options.checkSkip count <;> rfl

theorem withOption_limit {c : Criteria} (hv : c.options.Valid) (count : Value) :
    c.withOption .limit count = c.limit count := by
  unfold withOption limit
  rw [hv.replace_limit]
  cases Options.checkLimit count <;> rfl

theorem withOption_sort {c : Criteria} (hv : c.options.Valid) (ordering : Value) :
    c.withOption .sort ordering = c.orderBy ordering := by
  unfold withOption orderBy
  rw [hv.replace_sort]
  cases Options.checkSort ordering <;> rfl

theorem withOption_fields {c : Criteria} (hv : c.options.Valid) (fields : List Value) :
    c.withOption .fields (.tuple fields) = .ok (c.only fields) := by
  unfold withOption
  rw [hv.replace_fields]
  rfl

/-- Where the options have passed their checks, checking them again makes no difference. -/
theorem applyAnew_eq {c : Criteria} (hv : c.options.Valid) (step : Step) :
    c.applyAnew step = c.apply step := by
  cases step with
  | only fields => exact withOption_fields hv fields
  | skip count => exact withOption_skip hv count
  | limit count => exact withOption_limit hv count
  | orderBy ordering => exact withOption_sort hv ordering
  | paginate page perPage =>
      show applyAnew c (.paginate page perPage) = c.paginate page perPage
      rw [applyAnew, paginate]
      cases Extras.check page with
      | error e => rfl
      | ok extras =>
          cases perPage with
          | null => rfl
          | _ => exact withOption_limit (c := { c with extras }) hv _
  | _ => rfl

theorem runAnew_eq {c : Criteria} (hc : c.Valid) (steps : List Step) :
    c.runAnew steps = c.run steps := by
  unfold runAnew run
  induction steps generalizing c with
  | nil => rfl
  | cons step steps ih =>
      rw [List.foldl_cons, List.foldl_cons, applyAnew_eq hc.options]
      exact ih (valid_advance hc step)

/-- Calls on different components neither wait for each other nor disturb each other.  Runs with
the same calls for each component, in the same order for each, end in the same criteria; a call
leaves the components that it does not change; whether and how it fails depends on its arguments
alone, although it checks all options anew; and asking for a page either succeeds in all it asks or
changes nothing. -/
theorem components_independent {c : Criteria} (hr : c.Reachable) :
    (∀ steps others : List Step,
      (∀ k : Component, steps.filter (·.touches k) = others.filter (·.touches k)) →
        c.runAnew steps = c.runAnew others) ∧
    (∀ steps, c.runAnew steps = c.run steps) ∧
    (∀ (step : Step) (k : Component), step.touches k = false →
      (c.runAnew [step]).content k = c.content k) ∧
    (∀ d : Criteria, d.Reachable → ∀ (step : Step) (e : Fault),
      c.applyAnew step = .error e ↔ d.applyAnew step = .error e) ∧
    ∀ (page perPage : Value) (e : Fault), c.applyAnew (.paginate page perPage) = .error e →
      (c.runAnew [.paginate page perPage]).extras = c.extras ∧
        (c.runAnew [.paginate page perPage]).options.limit = c.options.limit := by
  refine ⟨?_, runAnew_eq hr.valid, ?_, ?_, ?_⟩
  · intro steps others h
    rw [runAnew_eq hr.valid, runAnew_eq hr.valid]
    exact run_eq_of_filter_eq c h
  · intro step k hk
    rw [runAnew_eq hr.valid]
    exact content_advance_of_not_touches c hk
  · intro d hd step e
    rw [applyAnew_eq hr.valid.options, applyAnew_eq hd.valid.options, apply_eq_error_iff,
      apply_eq_error_iff]
  · intro page perPage e h
    have hsame : c.runAnew [.paginate page perPage] = c := by
      unfold runAnew
      rw [List.foldl_cons, h]
      rfl
    rw [hsame]
    exact ⟨rfl, rfl⟩

/-- Calls on every component, two of which fail, in two orders that keep the order for each
component; a page that is refused for its size leaves the extras as well. -/
theorem components_independent_interleaved :
    let c := empty.run [.filter (.dict [(.text "n", .text "1")]) [], .limit (.int 9),
      .extras (.dict [(.text "page", .int 3)])]
    let refused : Step := .paginate (.int 2) (.int 0)
    let narrow : Step := .filter (.dict [(.text "b", .text "2"), (.text "n", .text "3")]) []
    let hints : Step := .extras (.dict [(.text "page", .int 7)])
    let steps : List Step := [refused, narrow, .skip (.int 3), .ids (.text "x"), .limit (.int 5),
      hints, .paginate (.int 4) .null, .only [.text "b"], .orderBy (.text "b")]
    let others : List Step := [.orderBy (.text "b"), .only [.text "b"], refused, .limit (.int 5),
      hints, .skip (.int 3), .paginate (.int 4) .null, narrow, .ids (.text "x")]
    c.runAnew steps = c.runAnew others ∧ (c.runAnew steps).extras = ⟨some 4⟩ ∧
      (c.runAnew steps).options.limit = some 5 ∧ (c.runAnew [refused]).extras = ⟨some 3⟩ ∧
      (c.runAnew [narrow]).content .limit = some (9 : Int) := by
  intro c refused narrow hints steps others
  obtain ⟨hsame, hanew, hframe, -, hpage⟩ :=
    components_independent (c := c) (reachable_empty.run _)
  have horder : ∀ k : Component, steps.filter (·.touches k) = others.filter (·.touches k) := by
    intro k
    cases k <;> rfl
  have hrefused := hpage (.int 2) (.int 0) _ rfl
  refine ⟨hsame steps others horder, ?_, ?_, hrefused.1, hframe narrow .limit rfl⟩
  · rw [hanew]
    rfl
  · rw [hanew]
    rfl

end Criteria
end RecordQuery
