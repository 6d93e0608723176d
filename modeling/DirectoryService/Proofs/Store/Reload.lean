import DirectoryService.Proofs.Schema.Superiors
import DirectoryService.Store.Memory

/-!
# Reading the schema again

The four sections of a schema are read one after the other, and the schema in a store can be
replaced between two of the reads. What is served after a reload is therefore a mix: each section is
that of a schema which the store held at some moment, and these moments come in the order in which
the sections are read. Every mix that passes the checks of a schema can come out.
-/

namespace DirectoryService

/-- A section of the stored schema takes its place among sections that were read before. -/
def Schema.Kind.read (kind : Schema.Kind) (store : Store) (sections : Catalog) :
    Except Error Catalog :=
  match kind with
  | .ldapSyntax => store.syntaxes.map fun syntaxes => { sections with syntaxes }
  | .matchingRule => store.matchingRules.map fun matchingRules => { sections with matchingRules }
  | .attributeType =>
    store.attributeTypes.map fun attributeTypes => { sections with attributeTypes }
  | .objectClass => store.objectClasses.map fun objectClasses => { sections with objectClasses }

/-- A section of one schema takes its place among the sections of another. -/
def Schema.Kind.copy (kind : Schema.Kind) (catalog sections : Catalog) : Catalog :=
  match kind with
  | .ldapSyntax => { sections with syntaxes := catalog.syntaxes }
  | .matchingRule => { sections with matchingRules := catalog.matchingRules }
  | .attributeType => { sections with attributeTypes := catalog.attributeTypes }
  | .objectClass => { sections with objectClasses := catalog.objectClasses }

namespace Catalog

/-- Every section of a schema is that of one of several schemas, and none of them is that of an
earlier schema than the section before it. -/
def IsMixOf (held : List Catalog) (mixed : Catalog) : Prop :=
  ∃ first second third fourth : Nat, first ≤ second ∧ second ≤ third ∧ third ≤ fourth ∧
    ∃ a b c d, held[first]? = some a ∧ held[second]? = some b ∧ held[third]? = some c ∧
      held[fourth]? = some d ∧
      mixed = ⟨a.syntaxes, b.matchingRules, c.attributeTypes, d.objectClasses⟩

/-- Sections are copied from some of several schemas, each from the same one as the section before
it or from a later one. -/
def Gathers : (left : List Schema.Kind) → (sections : Catalog) → (held : List Catalog) →
    (result : Catalog) → Prop
  | [], sections, _, result => sections = result
  | kind :: left, sections, held, result => ∃ moment catalog, held[moment]? = some catalog ∧
      Gathers left (kind.copy catalog sections) (held.drop moment) result

/-- What is copied from the later ones of several schemas is copied from them. -/
theorem Gathers.of_drop {left : List Schema.Kind} {sections result : Catalog}
    {held : List Catalog} (count : Nat) (gathers : Gathers left sections (held.drop count) result) :
    Gathers left sections held result := by
  cases left with
  | nil => exact gathers
  | cons kind left =>
    obtain ⟨moment, catalog, found, rest⟩ := gathers
    rw [List.getElem?_drop] at found
    rw [List.drop_drop] at rest
    exact ⟨count + moment, catalog, found, rest⟩

/-- The sections of a schema in the order in which they are read. -/
def sectionOrder : List Schema.Kind :=
  [.ldapSyntax, .matchingRule, .attributeType, .objectClass]

/-- To gather all sections is to mix. -/
theorem gathers_iff_isMixOf {held : List Catalog} {result : Catalog} :
    Gathers sectionOrder .empty held result ↔ result.IsMixOf held := by
  constructor
  · rintro ⟨first, a, ha, second, b, hb, third, c, hc, fourth, d, hd, rfl⟩
    simp only [List.getElem?_drop, List.drop_drop] at hb hc hd
    exact ⟨first, first + second, first + second + third, first + second + third + fourth,
      Nat.le_add_right _ _, Nat.le_add_right _ _, Nat.le_add_right _ _, a, b, c, d, ha, hb, hc, hd,
      rfl⟩
  · rintro ⟨first, second, third, fourth, hsecond, hthird, hfourth, a, b, c, d, ha, hb, hc, hd,
      rfl⟩
    refine ⟨first, a, ha, second - first, b, ?_, third - second, c, ?_, fourth - third, d, ?_, rfl⟩
    · rw [List.getElem?_drop, Nat.add_sub_cancel' hsecond, hb]
    · rw [List.drop_drop, List.getElem?_drop, Nat.add_sub_cancel' hsecond,
        Nat.add_sub_cancel' hthird, hc]
    · have hsum : first + (second - first) + (third - second) + (fourth - third) = fourth := by
        rw [Nat.add_sub_cancel' hsecond, Nat.add_sub_cancel' hthird, Nat.add_sub_cancel' hfourth]
      rw [List.drop_drop, List.drop_drop, List.getElem?_drop, ← Nat.add_assoc, hsum, hd]

end Catalog

/-- How far a reload has come. -/
inductive Reload where
  /-- Sections are left to be read, and others were read. -/
  | reading (left : List Schema.Kind) (sections : Catalog)
  /-- The reload has ended. -/
  | ended (answer : Except Error Catalog)

namespace Reload

/-- A reload that has read nothing. -/
def begun : Reload := .reading Catalog.sectionOrder .empty

/-- The next section is read, or, if there is none left, the schema is checked. -/
def step (store : Store) : Reload → Reload
  | .reading [] sections => .ended (sections.checked.mapError .schema)
  | .reading (kind :: left) sections =>
    match kind.read store sections with
    | .ok sections => .reading left sections
    | .error error => .ended (.error error)
  | .ended answer => .ended answer

/-- The schema that is served: what the reload has come to if it has ended well, and otherwise what
was served before. -/
def served (before : Catalog) : Reload → Catalog
  | .ended (.ok catalog) => catalog
  | _ => before

/-- A step of a reload that has ended does not change again what is served. -/
theorem served_step (store : Store) (before : Catalog) (stage : Reload) :
    (stage.step store).served (stage.served before) = (stage.step store).served before := by
  cases stage with
  | reading left sections => rfl
  | ended answer => cases answer <;> rfl

/-- Each of the stores is asked for one section, and what was read is assembled. -/
theorem step_four_times (first second third fourth last : Store) :
    step last (step fourth (step third (step second (step first begun)))) =
      .ended (Catalog.assemble first.syntaxes second.matchingRules third.attributeTypes
        fourth.objectClasses) := by
  simp only [begun, Catalog.sectionOrder, step, Schema.Kind.read, Catalog.assemble]
  cases first.syntaxes with
  | error error => rfl
  | ok syntaxes =>
    cases second.matchingRules with
    | error error => rfl
    | ok matchingRules =>
      cases third.attributeTypes with
      | error error => rfl
      | ok attributeTypes =>
        cases fourth.objectClasses with
        | error error => rfl
        | ok objectClasses => rfl

end Reload

/-- What happens while a reload goes on. -/
inductive ReloadEvent where
  /-- The reload makes a step. -/
  | step
  /-- The stored schema is replaced as a whole. -/
  | replace (catalog : Catalog)

namespace ReloadEvent

/-- The schema that takes the place of the stored one. -/
def replacement? : ReloadEvent → Option Catalog
  | .step => none
  | .replace catalog => some catalog

/-- The schemas that take the place of the stored one, one after the other. -/
def replacements (events : List ReloadEvent) : List Catalog := events.filterMap replacement?

/-- Replacements alone are the ones that they are. -/
theorem replacements_map_replace (catalogs : List Catalog) :
    replacements (catalogs.map replace) = catalogs := by
  rw [replacements, List.filterMap_map]
  exact List.filterMap_some

/-- Replacements come in the order of the events. -/
theorem replacements_append (earlier later : List ReloadEvent) :
    replacements (earlier ++ later) = replacements earlier ++ replacements later :=
  List.filterMap_append

end ReloadEvent

/-- Something that holds a schema, which can be asked for and replaced as a whole. -/
structure Backing (σ : Type) where
  /-- The store that answers the reads. -/
  view : σ → Store
  /-- The state after the schema was replaced. -/
  replace : σ → Catalog → σ
  /-- A state holds a schema. -/
  Holds : σ → Catalog → Prop
  /-- The sections of the schema that is held are read. -/
  read_eq : ∀ {state catalog}, Holds state catalog → ∀ (kind : Schema.Kind) sections,
    kind.read (view state) sections = .ok (kind.copy catalog sections)
  /-- A schema is held after it was put in the place of another one. -/
  holds_replace : ∀ {state catalog}, Holds state catalog → ∀ next, Holds (replace state next) next

/-- A reload, what it reads from, and the schema that is served. -/
structure Reloading (σ : Type) where
  /-- What is read. -/
  state : σ
  /-- How far the reload has come. -/
  stage : Reload
  /-- The schema that is served. -/
  served : Catalog

namespace Backing

variable {σ : Type} (backing : Backing σ)

/-- One event. -/
def after (reloading : Reloading σ) : ReloadEvent → Reloading σ
  | .step =>
    let stage := reloading.stage.step (backing.view reloading.state)
    { reloading with stage, served := stage.served reloading.served }
  | .replace catalog => { reloading with state := backing.replace reloading.state catalog }

/-- Events one after the other. -/
def run (reloading : Reloading σ) (events : List ReloadEvent) : Reloading σ :=
  events.foldl backing.after reloading

/-- A reload that is begun while a schema is served. -/
def start (state : σ) (served : Catalog) : Reloading σ := ⟨state, .begun, served⟩

/-- What a reload comes to that is begun while a schema is held. -/
structure Mixes (state : σ) (held : Catalog) : Prop where
  /-- What it can install while replacements are made are the mixes that pass the checks. -/
  installs_iff : ∀ served replacements installed,
    (∃ events, ReloadEvent.replacements events = replacements ∧
      (backing.run (start state served) events).stage = .ended (.ok installed) ∧
      (backing.run (start state served) events).served = installed) ↔
    installed.IsMixOf (held :: replacements) ∧ installed.checked = .ok installed
  /-- As long as it has not ended well, the schema that was served before is served. -/
  keeps : ∀ served events,
    (∀ installed, (backing.run (start state served) events).stage ≠ .ended (.ok installed)) →
      (backing.run (start state served) events).served = served
  /-- If no replacement comes between its reads, what it installs was held as a whole. -/
  whole : ∀ served (before : List Catalog) later installed,
    (backing.run (start state served)
      (before.map .replace ++ [.step, .step, .step, .step] ++ later)).stage =
        .ended (.ok installed) → installed = before.getLastD held
  /-- If no replacement comes between its steps, it comes to what one load of the schema does. -/
  undisturbed : ∀ served,
    (backing.run (start state served) [.step, .step, .step, .step, .step]).stage =
      .ended (Catalog.load (backing.view state))

variable {backing} {state : σ} {held result served : Catalog}
  {left : List Schema.Kind} {sections : Catalog}

/-- Events come after each other. -/
theorem run_append (reloading : Reloading σ) (earlier later : List ReloadEvent) :
    backing.run reloading (earlier ++ later) = backing.run (backing.run reloading earlier) later :=
  List.foldl_append

/-- What is served is what the reload has come to, if it has ended well. -/
theorem served_run {reloading : Reloading σ} (before : Catalog)
    (serves : reloading.served = reloading.stage.served before) (events : List ReloadEvent) :
    (backing.run reloading events).served =
      (backing.run reloading events).stage.served before := by
  induction events generalizing reloading with
  | nil => exact serves
  | cons event events ih =>
    refine ih (?_ : (backing.after reloading event).served =
      (backing.after reloading event).stage.served before)
    cases event with
    | step =>
      simp only [after, serves]
      exact Reload.served_step _ before reloading.stage
    | replace catalog => exact serves

/-- A reload that has ended stays as it is. -/
theorem stage_run {reloading : Reloading σ} {answer : Except Error Catalog}
    (ended : reloading.stage = .ended answer) (events : List ReloadEvent) :
    (backing.run reloading events).stage = .ended answer := by
  induction events generalizing reloading with
  | nil => exact ended
  | cons event events ih =>
    refine ih (?_ : (backing.after reloading event).stage = .ended answer)
    cases event with
    | step =>
      simp only [after, ended]
      rfl
    | replace catalog => exact ended

/-- A section is read while a schema is held. -/
theorem after_step_reading (holds : backing.Holds state held) (kind : Schema.Kind)
    (left : List Schema.Kind) (sections served : Catalog) :
    backing.after ⟨state, .reading (kind :: left) sections, served⟩ .step =
      ⟨state, .reading left (kind.copy held sections), served⟩ := by
  simp only [after, Reload.step, backing.read_eq holds]
  rfl

/-- The schema is replaced while a reload does nothing. -/
theorem exists_run_replace {replacements : List Catalog} {moment : Nat} {catalog : Catalog}
    (holds : backing.Holds state held) (found : (held :: replacements)[moment]? = some catalog)
    (stage : Reload) (served : Catalog) : ∃ later, backing.Holds later catalog ∧
      backing.run ⟨state, stage, served⟩ ((replacements.take moment).map .replace) =
        ⟨later, stage, served⟩ := by
  induction moment generalizing state held replacements with
  | zero =>
    cases found
    exact ⟨state, holds, rfl⟩
  | succ moment ih =>
    cases replacements with
    | nil => cases found
    | cons next replacements => exact ih (backing.holds_replace holds next) found

/-- Whatever happens, a reload that ends well has gathered what was left to be read from the schemas
that were held, and has checked it. -/
theorem gathers_of_run {events : List ReloadEvent} (holds : backing.Holds state held)
    (ended : (backing.run ⟨state, .reading left sections, served⟩ events).stage =
      .ended (.ok result)) :
    Catalog.Gathers left sections (held :: ReloadEvent.replacements events) result ∧
      result.checked = .ok result := by
  induction events generalizing state held left sections served with
  | nil => cases ended
  | cons event events ih =>
    cases event with
    | replace next =>
      obtain ⟨gathers, checked⟩ := ih (backing.holds_replace holds next) ended
      exact ⟨Catalog.Gathers.of_drop 1 gathers, checked⟩
    | step =>
      cases left with
      | nil =>
        -- The check was the last step, and nothing changes its answer.
        have hstage : (backing.run (backing.after ⟨state, .reading [] sections, served⟩ .step)
            events).stage = .ended (sections.checked.mapError .schema) := stage_run rfl events
        have hchecked := Reload.ended.inj (hstage.symm.trans ended)
        cases checked : sections.checked with
        | error fault =>
          rw [checked] at hchecked
          cases hchecked
        | ok answer =>
          rw [checked] at hchecked
          cases hchecked
          obtain rfl := (Catalog.checked_eq_ok_iff.1 checked).1
          exact ⟨rfl, checked⟩
      | cons kind left =>
        have hrun : (backing.run (backing.after _ .step) events).stage = _ := ended
        rw [after_step_reading holds] at hrun
        obtain ⟨gathers, checked⟩ := ih holds hrun
        exact ⟨⟨0, held, rfl, gathers⟩, checked⟩

/-- What can be gathered is what a reload can end with. -/
theorem exists_run_of_gathers {replacements : List Catalog} (holds : backing.Holds state held)
    (gathers : Catalog.Gathers left sections (held :: replacements) result)
    (checked : result.checked = .ok result) :
    ∃ events, ReloadEvent.replacements events = replacements ∧
      (backing.run ⟨state, .reading left sections, served⟩ events).stage =
        .ended (.ok result) := by
  induction left generalizing state held sections served replacements with
  | nil =>
    obtain rfl := gathers
    refine ⟨.step :: replacements.map .replace,
      ReloadEvent.replacements_map_replace replacements, ?_⟩
    have hstage : (backing.run (backing.after ⟨state, .reading [] sections, served⟩ .step)
        (replacements.map .replace)).stage = .ended (sections.checked.mapError .schema) :=
      stage_run rfl _
    rw [checked] at hstage
    exact hstage
  | cons kind left ih =>
    obtain ⟨moment, catalog, found, rest⟩ := gathers
    obtain ⟨later, holdsLater, hreplaced⟩ :=
      exists_run_replace holds found (.reading (kind :: left) sections) served
    have hdrop : (held :: replacements).drop moment = catalog :: replacements.drop moment := by
      obtain ⟨bound, same⟩ := List.getElem?_eq_some_iff.1 found
      rw [List.drop_eq_getElem_cons bound, same, List.drop_succ_cons]
    rw [hdrop] at rest
    obtain ⟨events, hevents, ended⟩ := ih holdsLater rest
    refine ⟨(replacements.take moment).map .replace ++ .step :: events, ?_, ?_⟩
    · have htail : ReloadEvent.replacements (.step :: events) = replacements.drop moment := hevents
      rw [ReloadEvent.replacements_append, ReloadEvent.replacements_map_replace, htail,
        List.take_append_drop]
    · rw [run_append, hreplaced]
      change (backing.run (backing.after _ .step) events).stage = _
      rw [after_step_reading holdsLater, ended]

/-- A reload that reads while nothing is replaced gathers the whole schema that is held. -/
theorem eq_of_run_undisturbed {before : List Catalog} {later : List ReloadEvent}
    (holds : backing.Holds state held)
    (ended : (backing.run (start state served)
      (before.map .replace ++ [.step, .step, .step, .step] ++ later)).stage =
        .ended (.ok result)) :
    result = before.getLastD held := by
  have found : (held :: before)[before.length]? = some (before.getLastD held) := by
    have hlast := List.getLast?_cons (a := held) (l := before)
    rw [List.getLast?_eq_getElem?] at hlast
    rw [List.getLastD_eq_getLast?]
    exact hlast
  obtain ⟨middle, holdsMiddle, hreplaced⟩ := exists_run_replace holds found .begun served
  rw [List.take_length] at hreplaced
  have hreads : backing.run ⟨middle, .begun, served⟩ [.step, .step, .step, .step] =
      ⟨middle, .reading [] (before.getLastD held), served⟩ := by
    simp only [run, List.foldl_cons, List.foldl_nil, Reload.begun, Catalog.sectionOrder,
      after_step_reading holdsMiddle]
    rfl
  rw [run_append, run_append, start, hreplaced, hreads] at ended
  exact (gathers_of_run holdsMiddle ended).1.symm

/-- What a reload comes to follows from the schema that is held when it is begun. -/
theorem Holds.mixes (holds : backing.Holds state held) : backing.Mixes state held where
  installs_iff served replacements installed := by
    rw [← Catalog.gathers_iff_isMixOf]
    constructor
    · rintro ⟨events, rfl, ended, -⟩
      exact gathers_of_run holds ended
    · rintro ⟨gathers, checked⟩
      obtain ⟨events, hevents, ended⟩ := exists_run_of_gathers holds gathers checked
      refine ⟨events, hevents, ended, ?_⟩
      rw [served_run served rfl, start, Reload.begun, ended]
      rfl
  keeps served events unended := by
    rw [served_run served rfl]
    cases hstage : (backing.run (start state served) events).stage with
    | reading left sections => rfl
    | ended answer =>
      cases answer with
      | error error => rfl
      | ok installed => exact absurd hstage (unended installed)
  whole _ _ _ _ ended := eq_of_run_undisturbed holds ended
  undisturbed served :=
    Reload.step_four_times (backing.view state) (backing.view state) (backing.view state)
      (backing.view state) (backing.view state)

end Backing

/-- A store in memory, in which the schema is replaced as a whole. -/
def MemoryStore.backing : Backing MemoryStore where
  view := toStore
  replace := loadSchema
  Holds store catalog := store.catalog = catalog
  read_eq holds kind sections := by
    subst holds
    cases kind <;> rfl
  holds_replace _ _ := rfl

end DirectoryService
