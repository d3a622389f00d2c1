import FormLetter.Proofs.Document.Reading

namespace FormLetter.Document

/-- What is between two events of a part: the scopes that were entered and not left, the latest
first, and in a fallback element its name and the number of namesakes that are open in it. -/
inductive Reader where
  | reading (scopes : List Xml.Scope)
  | skipping (scopes : List Xml.Scope) (name : List Char) (depth : ℕ)
  deriving DecidableEq

namespace Reader

/-- What is read of an event. -/
def step? : Reader → Xml.Event → Option (List Event × Reader)
  | reading scopes, .start tag =>
    ((scopes.headD []).enter? tag).map fun scope =>
      if isFallback scope tag.name then ([], skipping (scope :: scopes) tag.name 0)
      else ([.start (.ofName scope tag.name)], reading (scope :: scopes))
  | reading scopes, .empty tag =>
    ((scopes.headD []).enter? tag).map fun scope =>
      ([.empty (.ofName scope tag.name)], reading scopes)
  | reading scopes, .stop name =>
    some ([.stop (.ofName (scopes.headD []) name)], reading scopes.tail)
  | reading scopes, .text raw => some ([.text raw], reading scopes)
  | reading scopes, .characters raw => some ([.characters raw], reading scopes)
  | skipping scopes name depth, .start tag =>
    some ([], skipping scopes name (if tag.name = name then depth + 1 else depth))
  | skipping scopes name depth, .stop closed =>
    if closed = name then
      match depth with
      | 0 => some ([], reading scopes)
      | depth + 1 => some ([], skipping scopes name depth)
    else some ([], skipping scopes name depth)
  | skipping scopes name depth, .empty _ | skipping scopes name depth, .text _
  | skipping scopes name depth, .characters _ => some ([], skipping scopes name depth)

/-- What is read of events, one after the other. -/
def run? (r : Reader) : List Xml.Event → Option (List Event × Reader)
  | [] => some ([], r)
  | event :: events =>
    (r.step? event).bind fun (found, next) =>
      (run? next events).map fun (more, last) => (found ++ more, last)

/-- A part may not end in a fallback element. -/
def finish? : List Event × Reader → Option (List Event)
  | (found, reading _) => some found
  | (_, skipping ..) => none

theorem step?_fallback {scopes : List Xml.Scope}
    (hscope : (scopes.headD []).enter? tag = some scope) (h : isFallback scope tag.name = true) :
    step? (reading scopes) (.start tag) = some ([], skipping (scope :: scopes) tag.name 0) := by
  rw [step?, hscope, Option.map_some, if_pos h]

theorem step?_start {scopes : List Xml.Scope} (hscope : (scopes.headD []).enter? tag = some scope)
    (h : isFallback scope tag.name = false) :
    step? (reading scopes) (.start tag) =
      some ([.start (.ofName scope tag.name)], reading (scope :: scopes)) := by
  rw [step?, hscope, Option.map_some, if_neg (Bool.eq_false_iff.mp h)]

theorem step?_empty {scopes : List Xml.Scope} (hscope : (scopes.headD []).enter? tag = some scope) :
    step? (reading scopes) (.empty tag) =
      some ([.empty (.ofName scope tag.name)], reading scopes) := by
  rw [step?, hscope, Option.map_some]

/-- The end tag of a fallback element, where none of its namesakes is open. -/
theorem step?_own (scopes : List Xml.Scope) (name : List Char) :
    step? (skipping scopes name 0) (.stop name) = some ([], reading scopes) :=
  if_pos rfl

theorem step?_namesake (scopes : List Xml.Scope) (name : List Char) (depth : ℕ) :
    step? (skipping scopes name (depth + 1)) (.stop name) = some ([], skipping scopes name depth) :=
  if_pos rfl

theorem step?_stop_other (scopes : List Xml.Scope) (h : closed ≠ name) (depth : ℕ) :
    step? (skipping scopes name depth) (.stop closed) = some ([], skipping scopes name depth) :=
  if_neg h

theorem run?_cons (h : step? r event = some (found, next)) (events : List Xml.Event) :
    r.run? (event :: events) =
      (next.run? events).map fun (more, last) => (found ++ more, last) := by
  rw [run?, h]
  rfl

theorem run?_append (h : run? r events = some (found, next)) (more : List Xml.Event) :
    r.run? (events ++ more) = (next.run? more).map fun (rest, last) => (found ++ rest, last) := by
  induction events generalizing r found with
  | nil =>
    cases h
    simp
  | cons event events ih =>
    obtain ⟨⟨first, mid⟩, hstep, h⟩ := Option.bind_eq_some_iff.mp h
    obtain ⟨⟨second, last⟩, hrest, h⟩ := Option.map_eq_some_iff.mp h
    cases h
    rw [List.cons_append, run?_cons hstep, ih hrest]
    simp [Function.comp_def]

theorem run?_cons_eq_some (h : run? r (event :: events) = some (found, last)) :
    ∃ first next rest, step? r event = some (first, next) ∧ run? next events = some (rest, last) ∧
      found = first ++ rest := by
  obtain ⟨⟨first, next⟩, hstep, h⟩ := Option.bind_eq_some_iff.mp h
  obtain ⟨⟨rest, after⟩, hrest, h⟩ := Option.map_eq_some_iff.mp h
  cases h
  exact ⟨first, next, rest, hstep, hrest, rfl⟩

/-- A reader of two texts read the first of them. -/
theorem run?_append_eq_some (h : run? r (events ++ more) = some (found, last)) :
    ∃ first next rest, run? r events = some (first, next) ∧ run? next more = some (rest, last) := by
  induction events generalizing r found with
  | nil => exact ⟨[], r, found, rfl, h⟩
  | cons event events ih =>
    obtain ⟨first, next, rest, hstep, hrest, -⟩ := run?_cons_eq_some h
    obtain ⟨second, after, rest, hsecond, hrest⟩ := ih hrest
    refine ⟨first ++ second, after, rest, ?_, hrest⟩
    rw [run?_cons hstep, hsecond]
    rfl

theorem map_bind_finish? (found : List Event) (ran : Option (List Event × Reader)) :
    ((ran.map fun (more, last) => (found ++ more, last)).bind finish?) =
      (ran.bind finish?).map (found ++ ·) := by
  rcases ran with _ | ⟨more, _ | _⟩ <;> rfl

theorem run?_finish? (h : step? r event = some (found, next)) (events : List Xml.Event) :
    (r.run? (event :: events)).bind finish? =
      ((next.run? events).bind finish?).map (found ++ ·) := by
  rw [run?_cons h, map_bind_finish?]

theorem run?_skipping (scopes : List Xml.Scope) (name : List Char) (depth : ℕ)
    (events : List Xml.Event) :
    ((skipping scopes name depth).run? events).bind finish? =
      (skip? name depth events).bind fun rest => ((reading scopes).run? rest).bind finish? := by
  induction events generalizing depth with
  | nil => rfl
  | cons event events ih =>
    cases event with
    | start tag =>
      rw [run?_finish? rfl, ih]
      simp [skip?]
    | stop closed =>
      by_cases hname : closed = name
      · subst hname
        cases depth with
        | zero =>
          rw [run?_finish? (step?_own scopes closed)]
          simp [skip?]
        | succ depth =>
          rw [run?_finish? (step?_namesake scopes closed depth), ih]
          simp [skip?]
      · rw [run?_finish? (step?_stop_other scopes hname depth), ih]
        simp [skip?, hname]
    | empty tag | text raw | characters raw =>
      rw [run?_finish? rfl, ih]
      simp [skip?]

theorem events?_of_fallback {scopes : List Xml.Scope}
    (hscope : (scopes.headD []).enter? tag = some scope) (h : isFallback scope tag.name = true)
    (rest : List Xml.Event) :
    events? scopes (.start tag :: rest) =
      (skip? tag.name 0 rest).bind (events? (scope :: scopes)) := by
  rw [events?]
  simp only [hscope, h, if_true]
  split
  · next hskip => rw [hskip]; rfl
  · next hskip => rw [hskip]; rfl

/-- The reader reads the events of a part. -/
theorem run?_reading (scopes : List Xml.Scope) (events : List Xml.Event) :
    ((reading scopes).run? events).bind finish? = events? scopes events := by
  induction scopes, events using events?.induct with
  | case1 scopes => simp [run?, finish?, events?]
  | case2 scopes scope tag rest hscope =>
    have hscope : (scopes.headD []).enter? tag = none := hscope
    rw [run?, step?, hscope, events?]
    simp only [hscope]
    rfl
  | case3 scopes scope tag rest inner hscope h hskip =>
    rw [run?_finish? (step?_fallback hscope h), run?_skipping, events?_of_fallback hscope h, hskip]
    rfl
  | case4 scopes scope tag rest inner hscope h after hskip ih =>
    rw [run?_finish? (step?_fallback hscope h), run?_skipping, events?_of_fallback hscope h, hskip]
    simpa using ih
  | case5 scopes scope tag rest inner hscope h ih =>
    have h := Bool.eq_false_iff.mpr h
    rw [run?_finish? (step?_start hscope h), ih, events?_start hscope h]
    rfl
  | case6 scopes scope tag rest hscope =>
    have hscope : (scopes.headD []).enter? tag = none := hscope
    rw [run?, step?, hscope, events?]
    simp only [hscope]
    rfl
  | case7 scopes scope tag rest inner hscope ih =>
    have hscope : (scopes.headD []).enter? tag = some inner := hscope
    rw [run?_finish? (step?_empty hscope), ih, events?]
    simp only [hscope]
    rfl
  | case8 scopes name rest ih =>
    rw [run?_finish? rfl, ih, events?_stop]
    rfl
  | case9 scopes raw rest ih | case10 scopes raw rest ih =>
    rw [run?_finish? rfl, ih, events?]
    rfl

theorem events?_append (h : run? (reading scopes) events = some (found, next))
    (more : List Xml.Event) :
    events? scopes (events ++ more) = ((next.run? more).bind finish?).map (found ++ ·) := by
  rw [← run?_reading, run?_append h, map_bind_finish?]

theorem events?_append_reading (h : run? (reading scopes) events = some (found, reading after))
    (more : List Xml.Event) :
    events? scopes (events ++ more) = (events? after more).map (found ++ ·) := by
  rw [events?_append h, run?_reading]

theorem run?_element {inner : List Xml.Node} (h : step? r (.start tag) = some (found, next))
    (hinner : run? next (Xml.eventsOf inner) = some (held, within))
    (hstop : step? within (.stop tag.name) = some (closing, last)) :
    r.run? (Xml.Node.element tag inner).events = some (found ++ (held ++ closing), last) := by
  rw [Xml.Node.events, run?_cons h, run?_append hinner, run?_cons hstop]
  simp [run?]

mutual
theorem run?_skipped : (node : Xml.Node) → (scopes : List Xml.Scope) → (name : List Char) →
    (depth : ℕ) →
    (skipping scopes name depth).run? node.events = some ([], skipping scopes name depth)
  | .element tag inner, scopes, name, depth => by
    have hstart : step? (skipping scopes name depth) (.start tag) =
        some ([], skipping scopes name (if tag.name = name then depth + 1 else depth)) := rfl
    have hstop : step? (skipping scopes name (if tag.name = name then depth + 1 else depth))
        (.stop tag.name) = some ([], skipping scopes name depth) := by
      by_cases h : tag.name = name
      · rw [if_pos h, h]
        exact step?_namesake scopes name depth
      · rw [if_neg h]
        exact step?_stop_other scopes h depth
    exact run?_element hstart (run?_skippedAll inner scopes name _) hstop
  | .empty _, _, _, _ | .text _, _, _, _ | .characters _, _, _, _ => rfl
termination_by structural node => node

/-- Whole nodes in a fallback element change nothing. -/
theorem run?_skippedAll : (nodes : List Xml.Node) → (scopes : List Xml.Scope) →
    (name : List Char) → (depth : ℕ) →
    (skipping scopes name depth).run? (Xml.eventsOf nodes) = some ([], skipping scopes name depth)
  | [], _, _, _ => rfl
  | node :: nodes, scopes, name, depth => by
    rw [Xml.eventsOf, run?_append (run?_skipped node scopes name depth),
      run?_skippedAll nodes scopes name depth]
    rfl
termination_by structural nodes => nodes
end

theorem run?_fallback {scopes : List Xml.Scope} (hscope : (scopes.headD []).enter? tag = some scope)
    (h : isFallback scope tag.name = true) (inner : List Xml.Node) :
    (reading scopes).run? (Xml.Node.element tag inner).events =
      some ([], reading (scope :: scopes)) :=
  run?_element (step?_fallback hscope h) (run?_skippedAll inner (scope :: scopes) tag.name 0)
    (step?_own (scope :: scopes) tag.name)

theorem step?_start_eq_some {scopes : List Xml.Scope}
    (h : step? (reading scopes) (.start tag) = some (found, next)) :
    ∃ scope, (scopes.headD []).enter? tag = some scope ∧
      (isFallback scope tag.name = false → next = reading (scope :: scopes)) := by
  obtain ⟨scope, hscope, h⟩ := Option.map_eq_some_iff.mp h
  refine ⟨scope, hscope, fun hnone => ?_⟩
  rw [if_neg (Bool.eq_false_iff.mp hnone)] at h
  cases h
  rfl

mutual
theorem exists_reading : (node : Xml.Node) → ∀ {scopes found next},
    (reading scopes).run? node.events = some (found, next) → ∃ after, next = reading after
  | .element tag inner, scopes, found, next, h => by
    obtain ⟨first, entered, rest, hstart, hrest, -⟩ := run?_cons_eq_some h
    obtain ⟨scope, hscope, hentered⟩ := step?_start_eq_some hstart
    cases hf : isFallback scope tag.name with
    | true =>
      rw [run?_fallback hscope hf] at h
      cases h
      exact ⟨_, rfl⟩
    | false =>
      cases hentered hf
      obtain ⟨held, within, rest, hinner, hstop⟩ := run?_append_eq_some hrest
      obtain ⟨after, rfl⟩ := exists_readingAll inner hinner
      cases hstop
      exact ⟨_, rfl⟩
  | .empty tag, scopes, found, next, h => by
    obtain ⟨first, last, rest, hstep, hrest, -⟩ := run?_cons_eq_some h
    obtain ⟨scope, -, hstep⟩ := Option.map_eq_some_iff.mp hstep
    cases hstep
    cases hrest
    exact ⟨_, rfl⟩
  | .text _, _, _, _, h | .characters _, _, _, _, h => by
    cases h
    exact ⟨_, rfl⟩
termination_by structural node => node

/-- Whole nodes end in no fallback element. -/
theorem exists_readingAll : (nodes : List Xml.Node) → ∀ {scopes found next},
    (reading scopes).run? (Xml.eventsOf nodes) = some (found, next) → ∃ after, next = reading after
  | [], _, _, _, h => by
    cases h
    exact ⟨_, rfl⟩
  | node :: nodes, scopes, found, next, h => by
    obtain ⟨first, between, rest, hnode, hnodes⟩ := run?_append_eq_some h
    obtain ⟨after, rfl⟩ := exists_reading node hnode
    exact exists_readingAll nodes hnodes
termination_by structural nodes => nodes
end

theorem run?_element_eq_some {inner : List Xml.Node}
    (hscope : (scopes.headD []).enter? tag = some scope) (hnone : isFallback scope tag.name = false)
    (h : (reading scopes).run? (Xml.Node.element tag inner).events = some (found, reading last)) :
    ∃ held within, (reading (scope :: scopes)).run? (Xml.eventsOf inner) =
      some (held, reading within) ∧ last = within.tail := by
  obtain ⟨first, entered, rest, hstart, hrest, -⟩ := run?_cons_eq_some h
  rw [step?_start hscope hnone] at hstart
  cases hstart
  obtain ⟨held, within, rest, hinner, hstop⟩ := run?_append_eq_some hrest
  obtain ⟨within, rfl⟩ := exists_readingAll inner hinner
  cases hstop
  exact ⟨held, within, hinner, rfl⟩

/-- What is read of a part up to some place, if all of it can be read. -/
theorem exists_run?_of_events? (hrun : run? (reading []) before = some (found, reading scopes))
    (h : events? [] (before ++ (events ++ after)) = some all) :
    ∃ held last rest, run? (reading scopes) events = some (held, last) ∧
      (last.run? after).bind finish? = some rest := by
  rw [← run?_reading, Option.bind_eq_some_iff] at h
  obtain ⟨⟨read, ended⟩, hall, hended⟩ := h
  obtain ⟨first, next, more, hbefore, hmore⟩ := run?_append_eq_some hall
  cases hrun.symm.trans hbefore
  obtain ⟨held, last, rest, hheld, hrest⟩ := run?_append_eq_some hmore
  refine ⟨held, last, rest, hheld, ?_⟩
  cases ended with
  | reading scopes => rw [hrest, Option.bind_some, finish?]
  | skipping scopes name depth => cases hended

end Reader

end FormLetter.Document
