import CssColor.Proofs.Outcome
import CssColor.Settings
import Mathlib.Data.List.Induction

/-!
# Settings over whole runs

The answer to a call for the settings depends on all that happened before it: on the environment, on
calls that succeeded or failed, and on the last time the settings were cleared. Here the answer is
given in terms of that history alone. Settings that are kept were built at the first successful call
since the last clearing, in the environment of that time.

## Main definitions

* `Settings.environmentAfter`: the environment that the steps of a history leave behind.
* `Settings.Succeeds`: a call at the end of a history gives settings.
* `Settings.FirstSuccess`: the first successful call since the last clearing.

## Main results

* `Settings.Store.kept_after_iff`: when settings are kept, and which.
* `Settings.kept_eq_none_iff`: nothing is kept before the first successful call.
* `Settings.run_get`: every answer of a run.
-/

namespace CssColor.Settings

/-! ## Histories -/

/-- What a step makes of a variable, if it concerns it: a text, or nothing when it is unset. -/
def Step.assignment? (key : Variable) : Step → Option (Option String)
  | .set other text => if other = key then some (some text) else none
  | .unset other => if other = key then some none else none
  | .clear => none
  | .get => none

/-- The environment after a history. The last step that concerns a variable decides about it. -/
def environmentAfter (history : List Step) : Environment := fun key =>
  (history.reverse.findSome? (Step.assignment? key)).getD none

/-- A call at the end of a history gives settings. -/
def Succeeds (history : List Step) : Prop :=
  ∃ settings,
    (Store.run {} (history ++ [Step.get]))[history.length]? = some (some (.valid settings))

/-- The call after the history `before` is the first successful one since the last clearing. -/
structure FirstSuccess (history before : List Step) : Prop where
  /-- After the call nothing was cleared. -/
  call : ∃ since, history = before ++ Step.get :: since ∧ Step.clear ∉ since
  /-- The call succeeded. -/
  succeeds : Succeeds before
  /-- Whatever succeeded before it was cleared. -/
  first : ∀ earlier since, before = earlier ++ Step.get :: since → Succeeds earlier →
    Step.clear ∈ since

/-! ## Building settings -/

/-- Settings are built with a port from 1 to 65535. -/
theorem port_of_build {environment : Environment} {settings : Settings}
    (h : build environment = .valid settings) : 1 ≤ settings.port ∧ settings.port ≤ 65535 := by
  rw [build] at h
  split at h
  · next text htext =>
    obtain ⟨port, hport, rfl⟩ := Checked.map_eq_valid_iff.mp h
    rw [readPort, Checked.below_eq_valid_iff, Checked.andThen_eq_valid_iff] at hport
    obtain ⟨high, hhigh, hport⟩ := hport
    obtain ⟨low, -, hhigh⟩ := Checked.andThen_eq_valid_iff.mp hhigh
    obtain ⟨hlow, rfl⟩ := Checked.ite_fault_eq_valid_iff.mp hhigh
    obtain ⟨hhigh, rfl⟩ := Checked.ite_fault_eq_valid_iff.mp hport
    exact ⟨hlow, hhigh⟩
  · obtain rfl := Checked.valid.inj h
    show (1 : Int) ≤ 8973 ∧ (8973 : Int) ≤ 65535
    decide

/-- What can be wrong with the text of a port. -/
inductive PortFault (text : String) : Fault → Prop where
  /-- It writes no integer. -/
  | unreadable (hread : Integer.read? text.toList = none) : PortFault text .unreadableInteger
  /-- It writes an integer with too many digits. -/
  | oversized {n : Int} (hread : Integer.read? text.toList = some n)
      (hlong : Decode.integerTextLimit < (toString n).length) : PortFault text .oversizedInteger
  /-- It writes an integer below 1. -/
  | tooSmall {n : Int} (hread : Integer.read? text.toList = some n)
      (hshort : (toString n).length ≤ Decode.integerTextLimit) (hn : n < 1) :
      PortFault text (.tooSmall 1)
  /-- It writes an integer above 65535. -/
  | tooLarge {n : Int} (hread : Integer.read? text.toList = some n)
      (hshort : (toString n).length ≤ Decode.integerTextLimit) (hn : 65535 < n) :
      PortFault text (.tooLarge 65535)

/-- A port that is refused has one issue, at the port. -/
theorem portFault_of_readPort {text : String} {issues : List Issue}
    (h : readPort text = .invalid issues) :
    ∃ fault, PortFault text fault ∧ issues = [⟨[.field "port"], fault⟩] := by
  -- the checks are made one after the other, and each of them has a fault of its own
  rw [readPort, Decode.integerText] at h
  cases hread : Integer.read? text.toList with
  | none =>
    simp only [hread, Checked.fault, Checked.andThen_invalid] at h
    exact ⟨_, .unreadable hread, (Checked.invalid.inj h).symm⟩
  | some n =>
    simp only [hread] at h
    split at h
    · next hshort =>
      simp only [Checked.andThen_valid, Decode.atLeast] at h
      split at h
      · simp only [Checked.andThen_valid, Decode.atMost] at h
        split at h
        · simp at h
        · next hlarge =>
          exact ⟨_, .tooLarge hread hshort (Int.not_le.mp hlarge), (Checked.invalid.inj h).symm⟩
      · next hsmall =>
        exact ⟨_, .tooSmall hread hshort (Int.not_le.mp hsmall), (Checked.invalid.inj h).symm⟩
    · next hlong =>
      exact ⟨_, .oversized hread (Nat.not_le.mp hlong), (Checked.invalid.inj h).symm⟩

/-- Only the port can be at fault. -/
theorem portFault_of_build {environment : Environment} {issues : List Issue}
    (h : build environment = .invalid issues) :
    ∃ text fault, environment .port = some text ∧ PortFault text fault ∧
      issues = [⟨[.field "port"], fault⟩] := by
  rw [build] at h
  split at h
  · next text htext =>
    have hport : readPort text = .invalid issues := by
      cases hread : readPort text with
      | valid port => simp [hread] at h
      | invalid found => simpa [hread] using h
    obtain ⟨fault, hfault, hissues⟩ := portFault_of_readPort hport
    exact ⟨text, fault, htext, hfault, hissues⟩
  · simp at h

namespace Store

/-! ## One step -/

/-- The store after the steps of a history. -/
def after (store : Store) (history : List Step) : Store :=
  history.foldl (fun store next => (store.step next).1) store

@[simp] theorem after_nil (store : Store) : store.after [] = store := rfl

@[simp] theorem after_cons (store : Store) (next : Step) (rest : List Step) :
    store.after (next :: rest) = (store.step next).1.after rest := rfl

/-- A history may be taken in two parts. -/
theorem after_append (store : Store) (first second : List Step) :
    store.after (first ++ second) = (store.after first).after second :=
  List.foldl_append

/-- The last step of a history is made in the store that the others have left. -/
theorem after_concat (store : Store) (history : List Step) (next : Step) :
    store.after (history ++ [next]) = ((store.after history).step next).1 :=
  after_append store history [next]

/-- A call is answered with what is kept, else with what is built. -/
theorem get_answer (store : Store) :
    store.get.2 = match store.kept with
      | some settings => .valid settings
      | none => build store.environment := by
  rw [get]
  cases store.kept with
  | some settings => rfl
  | none => cases build store.environment <;> rfl

/-- Settings are kept after a step when they were kept before and are not cleared, or when they are
built for a call. -/
theorem kept_step_iff {store : Store} {next : Step} {settings : Settings} :
    (store.step next).1.kept = some settings ↔ next ≠ .clear ∧ (store.kept = some settings ∨
      (next = .get ∧ store.kept = none ∧ build store.environment = .valid settings)) := by
  cases next with
  | set key text => simp [step]
  | unset key => simp [step]
  | clear => simp [step]
  | get =>
    cases hkept : store.kept with
    | some found => simp [step, get, hkept]
    | none => cases hbuild : build store.environment <;> simp [step, get, hkept, hbuild]

/-- A step changes the variable that it is about, and nothing else in the environment. -/
theorem environment_step (store : Store) (next : Step) (key : Variable) :
    (store.step next).1.environment key = (next.assignment? key).getD (store.environment key) := by
  cases next with
  | set other text =>
    by_cases h : key = other
    · simp [step, Step.assignment?, h]
    · simp [step, Step.assignment?, Environment.update_of_ne h, Ne.symm h]
  | unset other =>
    by_cases h : key = other
    · simp [step, Step.assignment?, h]
    · simp [step, Step.assignment?, Environment.update_of_ne h, Ne.symm h]
  | clear => rfl
  | get =>
    simp only [step, get]
    cases store.kept with
    | some settings => rfl
    | none => cases build store.environment <;> rfl

/-- A call that fails changes nothing. -/
theorem step_get_eq_self {store : Store} {issues : List Issue}
    (h : store.get.2 = .invalid issues) : (store.step .get).1 = store := by
  cases hkept : store.kept with
  | some settings => simp [get, hkept] at h
  | none =>
    cases hbuild : build store.environment with
    | valid settings => simp [get, hkept, hbuild] at h
    | invalid found => simp [step, get, hkept, hbuild]

/-! ## Runs -/

/-- The answers to a history come in two parts, the second from the store that the first has
left. -/
theorem run_append (store : Store) (first second : List Step) :
    store.run (first ++ second) = store.run first ++ (store.after first).run second := by
  induction first generalizing store with
  | nil => rfl
  | cons next rest ih => simp [run, ih]

theorem length_run (store : Store) (steps : List Step) :
    (store.run steps).length = steps.length := by
  induction steps generalizing store with
  | nil => rfl
  | cons next rest ih => simp [run, ih]

/-- The answer to a call is that of the store at the time of the call. -/
theorem getElem?_run_get (store : Store) (past future : List Step) :
    (store.run (past ++ Step.get :: future))[past.length]? =
      some (some (store.after past).get.2) := by
  have hlength := length_run store past
  rw [run_append, List.getElem?_append_right (Nat.le_of_eq hlength), hlength, Nat.sub_self]
  rfl

/-- The last step decides about the variable that it concerns. -/
theorem environmentAfter_concat (history : List Step) (next : Step) (key : Variable) :
    environmentAfter (history ++ [next]) key =
      (next.assignment? key).getD (environmentAfter history key) := by
  rw [environmentAfter, List.reverse_concat, List.findSome?_cons]
  cases next.assignment? key <;> rfl

/-- The environment of the store is the one that the history leaves behind. -/
theorem environment_after (history : List Step) :
    (after {} history).environment = environmentAfter history := by
  induction history using List.reverseRecOn with
  | nil => rfl
  | append_singleton history next ih =>
    funext key
    rw [after_concat, environment_step, environmentAfter_concat, ih]

/-- Settings are kept when they were built for a call before which nothing was kept and after which
nothing was cleared. -/
theorem kept_after_iff {history : List Step} {settings : Settings} :
    (after {} history).kept = some settings ↔
      ∃ before since, history = before ++ Step.get :: since ∧ Step.clear ∉ since ∧
        (after {} before).kept = none ∧ build (environmentAfter before) = .valid settings := by
  induction history using List.reverseRecOn with
  | nil => simp
  | append_singleton history next ih =>
    rw [after_concat, kept_step_iff, ih, environment_after]
    constructor
    -- what was kept is kept by a longer history, and a call that builds ends its own
    · rintro ⟨hclear, ⟨before, since, rfl, hsince, hnone, hbuild⟩ | ⟨rfl, hnone, hbuild⟩⟩
      · refine ⟨before, since ++ [next], by simp, ?_, hnone, hbuild⟩
        simp [hsince, hclear.symm]
      · exact ⟨history, [], rfl, List.not_mem_nil, hnone, hbuild⟩
    · rintro ⟨before, since, heq, hsince, hnone, hbuild⟩
      -- the last step is the call itself or comes after it
      rcases List.eq_nil_or_concat since with rfl | ⟨between, last, rfl⟩
      · obtain ⟨rfl, hnext⟩ := List.append_inj' heq rfl
        obtain rfl : next = .get := by simpa using hnext
        exact ⟨by decide, .inr ⟨rfl, hnone, hbuild⟩⟩
      · rw [List.concat_eq_append] at heq hsince
        rw [← List.cons_append, ← List.append_assoc] at heq
        obtain ⟨rfl, hlast⟩ := List.append_inj' heq rfl
        obtain rfl : next = last := by simpa using hlast
        simp only [List.mem_append, List.mem_singleton, not_or] at hsince
        exact ⟨hsince.2 ∘ Eq.symm, .inl ⟨before, between, rfl, hsince.1, hnone, hbuild⟩⟩

/-- What is kept stays until it is cleared. -/
theorem kept_after_append {history since : List Step} {settings : Settings}
    (h : (after {} history).kept = some settings) (hsince : Step.clear ∉ since) :
    (after {} (history ++ since)).kept = some settings := by
  obtain ⟨before, between, rfl, hbetween, hnone, hbuild⟩ := kept_after_iff.mp h
  exact kept_after_iff.mpr
    ⟨before, between ++ since, by simp, by simp [hbetween, hsince], hnone, hbuild⟩

end Store

/-! ## The first successful call -/

/-- A call succeeds when settings are kept or can be built. -/
theorem succeeds_iff {history : List Step} :
    Succeeds history ↔ (Store.after {} history).kept ≠ none ∨
      ∃ settings, build (environmentAfter history) = .valid settings := by
  simp only [Succeeds, Store.getElem?_run_get, Store.get_answer, Store.environment_after]
  cases (Store.after {} history).kept with
  | some settings => simp
  | none => simp

/-- After a successful call settings are kept. -/
theorem kept_of_succeeds {history : List Step} (h : Succeeds history) :
    ∃ settings, (Store.after {} (history ++ [Step.get])).kept = some settings := by
  rw [Store.after_concat]
  cases hkept : (Store.after {} history).kept with
  | some settings => exact ⟨settings, Store.kept_step_iff.mpr ⟨by decide, .inl hkept⟩⟩
  | none =>
    obtain ⟨settings, hbuild⟩ := (succeeds_iff.mp h).resolve_left (fun hne => hne hkept)
    rw [← Store.environment_after] at hbuild
    exact ⟨settings, Store.kept_step_iff.mpr ⟨by decide, .inr ⟨rfl, hkept, hbuild⟩⟩⟩

/-- Nothing is kept when every successful call has been cleared. -/
theorem kept_eq_none_iff {history : List Step} :
    (Store.after {} history).kept = none ↔
      ∀ earlier since, history = earlier ++ Step.get :: since → Succeeds earlier →
        Step.clear ∈ since := by
  constructor
  · rintro hnone earlier since rfl hsucceeds
    -- without a clearing the settings of that call would still be there
    by_contra hsince
    obtain ⟨settings, hkept⟩ := kept_of_succeeds hsucceeds
    have hstill := Store.kept_after_append hkept hsince
    rw [List.append_assoc, List.singleton_append, hnone] at hstill
    cases hstill
  · intro hcleared
    cases hkept : (Store.after {} history).kept with
    | none => rfl
    | some settings =>
      obtain ⟨before, since, hhistory, hsince, -, hbuild⟩ := Store.kept_after_iff.mp hkept
      exact absurd (hcleared before since hhistory (succeeds_iff.mpr (.inr ⟨settings, hbuild⟩)))
        hsince

/-- The first successful call since the last clearing is the one that built what is kept. -/
theorem kept_iff_firstSuccess {history : List Step} {settings : Settings} :
    (Store.after {} history).kept = some settings ↔
      ∃ before, FirstSuccess history before ∧
        build (environmentAfter before) = .valid settings := by
  rw [Store.kept_after_iff]
  constructor
  · rintro ⟨before, since, hhistory, hsince, hnone, hbuild⟩
    exact ⟨before, ⟨⟨since, hhistory, hsince⟩, succeeds_iff.mpr (.inr ⟨settings, hbuild⟩),
      kept_eq_none_iff.mp hnone⟩, hbuild⟩
  · rintro ⟨before, ⟨⟨since, hhistory, hsince⟩, -, hfirst⟩, hbuild⟩
    exact ⟨before, since, hhistory, hsince, kept_eq_none_iff.mpr hfirst, hbuild⟩

/-- Settings can be built at the first successful call, since nothing was kept then. -/
theorem FirstSuccess.build_eq_valid {history before : List Step}
    (h : FirstSuccess history before) :
    ∃ settings, build (environmentAfter before) = .valid settings :=
  (succeeds_iff.mp h.succeeds).resolve_left fun hkept => hkept (kept_eq_none_iff.mpr h.first)

/-! ## Every answer of a run -/

/-- What is kept has been built, so its port is in range as well. -/
theorem port_of_get {history : List Step} {settings : Settings}
    (h : (Store.after {} history).get.2 = .valid settings) :
    1 ≤ settings.port ∧ settings.port ≤ 65535 := by
  rw [Store.get_answer] at h
  cases hkept : (Store.after {} history).kept with
  | none => exact port_of_build (by simpa only [hkept] using h)
  | some found =>
    obtain rfl : found = settings := by simpa [hkept] using h
    obtain ⟨before, -, hbuild⟩ := kept_iff_firstSuccess.mp hkept
    exact port_of_build hbuild

/-- A call fails only in building the settings, since what is kept is valid. -/
theorem build_of_get_eq_invalid {history : List Step} {issues : List Issue}
    (h : (Store.after {} history).get.2 = .invalid issues) :
    build (environmentAfter history) = .invalid issues := by
  rw [Store.get_answer, Store.environment_after] at h
  cases hkept : (Store.after {} history).kept with
  | none => simpa only [hkept] using h
  | some found => simp [hkept] at h

/-- Every call of a run is answered with the settings of the environment at the first successful
call since the last clearing. Where there was none the settings are built from the environment of
the call itself. A call fails for the port of that environment, and then the other answers are those
of the run without it. The port of settings that are given is between 1 and 65535. -/
theorem run_get (past future : List Step) :
    let answers := Store.run {} (past ++ Step.get :: future)
    (∀ before, FirstSuccess past before → ∃ settings,
      build (environmentAfter before) = .valid settings ∧
        answers[past.length]? = some (some (.valid settings))) ∧
    ((∀ before, ¬ FirstSuccess past before) →
      answers[past.length]? = some (some (build (environmentAfter past)))) ∧
    (∀ issues, answers[past.length]? = some (some (.invalid issues)) →
      (∃ text fault, environmentAfter past .port = some text ∧ PortFault text fault ∧
        issues = [⟨[.field "port"], fault⟩]) ∧
      answers.eraseIdx past.length = Store.run {} (past ++ future)) ∧
    (∀ settings, answers[past.length]? = some (some (.valid settings)) →
      1 ≤ settings.port ∧ settings.port ≤ 65535) := by
  simp only [Store.getElem?_run_get, Option.some.injEq]
  refine ⟨fun before hfirst => ?_, fun hnone => ?_, fun issues hissues => ⟨?_, ?_⟩,
    fun settings => port_of_get⟩
  · obtain ⟨settings, hbuild⟩ := hfirst.build_eq_valid
    have hkept := kept_iff_firstSuccess.mpr ⟨before, hfirst, hbuild⟩
    exact ⟨settings, hbuild, by simp only [Store.get_answer, hkept]⟩
  · have hkept : (Store.after {} past).kept = none := by
      refine Option.eq_none_iff_forall_ne_some.mpr fun settings hkept => ?_
      obtain ⟨before, hfirst, -⟩ := kept_iff_firstSuccess.mp hkept
      exact hnone before hfirst
    simp only [Store.get_answer, hkept, Store.environment_after]
  · exact portFault_of_build (build_of_get_eq_invalid hissues)
  · -- the call leaves the store as it was, so the rest of the run goes on from there
    have hlength := Store.length_run {} past
    rw [Store.run_append, Store.run_append,
      List.eraseIdx_append_of_length_le (Nat.le_of_eq hlength), hlength, Nat.sub_self, Store.run,
      List.eraseIdx_cons_zero, Store.step_get_eq_self hissues]

/-- A port that is spoiled after the first call is noticed only once the settings are cleared. -/
theorem run_get_spoiled_port :
    let spoiled : List Step := [.set .port "9000", .get, .set .port "0"]
    (FirstSuccess spoiled [.set .port "9000"] ∧
      (Store.run {} (spoiled ++ [Step.get]))[3]? = some (some (.valid { port := 9000 }))) ∧
    ((∀ before, ¬ FirstSuccess (spoiled ++ [Step.clear]) before) ∧
      (Store.run {} (spoiled ++ [Step.clear] ++ [Step.get]))[4]? =
        some (some (.invalid [⟨[.field "port"], .tooSmall 1⟩]))) := by
  intro spoiled
  refine ⟨?_, ?_⟩
  · have hsettings : build (environmentAfter [.set .port "9000"]) = .valid { port := 9000 } := by
      decide
    have hfirst : FirstSuccess spoiled [.set .port "9000"] := by
      refine ⟨⟨[.set .port "0"], rfl, by decide⟩, succeeds_iff.mpr (.inr ⟨_, hsettings⟩), ?_⟩
      intro earlier since heq
      simp [List.cons_eq_append_iff] at heq
    obtain ⟨settings, hbuild, hanswer⟩ := (run_get spoiled []).1 _ hfirst
    rw [hsettings] at hbuild
    exact ⟨hfirst, Checked.valid.inj hbuild ▸ hanswer⟩
  · have hnone : ∀ before, ¬ FirstSuccess (spoiled ++ [Step.clear]) before := by
      intro before hfirst
      obtain ⟨settings, hbuild⟩ := hfirst.build_eq_valid
      exact absurd (kept_iff_firstSuccess.mpr ⟨before, hfirst, hbuild⟩) nofun
    have hbuild : build (environmentAfter (spoiled ++ [Step.clear])) =
        .invalid [⟨[.field "port"], .tooSmall 1⟩] := by
      decide
    have hanswer := (run_get (spoiled ++ [Step.clear]) []).2.1 hnone
    exact ⟨hnone, hbuild ▸ hanswer⟩

end CssColor.Settings
