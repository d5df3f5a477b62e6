import HostRoster.Proofs.Destruction

/-!
# What an execution folds into the host map

Nothing is undone when a call of an execution is refused, so the host map has to tell what the
calls before it have done. Whatever the cluster answers, the map is the one the execution started
from with the completed calls taken in: the created hosts if they could be tied to their keys, the
updates that were answered and the deletes that were answered. All this is read off the exchanges
of the execution, and nothing is asked after the one that breaks it.
-/
namespace HostRoster

namespace Call

def update? : Call → Option HostUpdate
  | update _ u => some u
  | _ => none

def delete? : Call → Option String
  | delete _ name => some name
  | _ => none

/-- The error of an execution that one of its calls was refused with another. -/
def refusal (creates : Declaration) : Call → SyncError → SyncError
  | list cluster, err => .remote .list cluster err
  | create _ _, err => .remote .create (", ".intercalate creates.keys) err
  | update _ u, err => .remote .update u.name err
  | delete _ name, err => .remote .delete name err

end Call

/-- The calls among some exchanges that were answered. -/
def answered (made : List (Exchange Remote)) : List Call :=
  made.filterMap fun e =>
    match (e.reply : Except SyncError e.call.Answer) with
    | .ok _ => some e.call
    | .error _ => none

/-- The updates that were completed, in the order they were. -/
def updatedIn (made : List (Exchange Remote)) : List HostUpdate :=
  (answered made).filterMap Call.update?

/-- The names whose deletes were completed, in the order they were. -/
def deletedIn (made : List (Exchange Remote)) : List String :=
  (answered made).filterMap Call.delete?

/-- The hosts that were created for the keys of a declaration. There are none unless the create
named one host for each key, the listing after it was answered and the hosts of these names could
be tied to the keys. -/
def createdIn (creates : Declaration) : List (Exchange Remote) → HostMap
  | ⟨.create _ _, .ok names⟩ :: ⟨.list _, .ok listed⟩ :: _ =>
    if List.length (α := String) names = creates.size then
      match correlateCreated (.ofDeclaration creates) (hostsNamed names listed) with
      | .ok mapped => mapped
      | .error _ => ∅
    else ∅
  | _ => ∅

/-- Exchanges in which a create was answered but not with a host for each key, and the error this
is reported as. -/
inductive Miscreated (creates : Declaration) : List (Exchange Remote) → SyncError → Prop
  /-- There were too few names or too many. -/
  | miscounted {cluster : String} {specs : List HostSpec} {names : List String}
      (differ : names.length ≠ creates.size) :
      Miscreated creates [⟨.create cluster specs, Except.ok names⟩]
        (.reconcile (.countMismatch creates.size names.length))
  /-- The hosts of the names could not be tied to the keys. -/
  | untied {cluster id : String} {specs : List HostSpec} {names : List String}
      {listed : List HostRecord} {cause : ReconcileError} (count : names.length = creates.size)
      (failed : correlateCreated (.ofDeclaration creates) (hostsNamed names listed) =
        .error cause) :
      Miscreated creates [⟨.create cluster specs, Except.ok names⟩, ⟨.list id, Except.ok listed⟩]
        (.reconcile cause)

/-- Exchanges that end with what breaks an execution, and the error it is broken with. -/
inductive Breaks (creates : Declaration) : List (Exchange Remote) → SyncError → Prop
  | refused (before : List (Exchange Remote)) (call : Call) (cause : SyncError) :
      Breaks creates (before ++ [⟨call, Except.error cause⟩]) (call.refusal creates cause)
  | miscreated {made : List (Exchange Remote)} {err : SyncError}
      (wrong : Miscreated creates made err) : Breaks creates made err

/-- The map without the first of its hosts that bears a name. -/
def HostMap.dropFirst (m : HostMap) (name : String) : HostMap :=
  ⟨m.entries.eraseP fun h => h.2.name == some name, m.ascending.sublist List.eraseP_sublist⟩

/-- The entry of a result says that an action of the plan was carried out. -/
inductive Completed.CarriesOut : Completed → Action → Prop
  | created {key : String} {record : HostRecord} {spec : HostSpec} (suits : record.Suits spec) :
      CarriesOut (.created key record) (.create key spec)
  | updated (u : HostUpdate) : CarriesOut (.updated u) (.update u)
  | deleted (name : String) (key : Option String) : CarriesOut (.deleted name key) (.delete name)

section Exchanges

@[simp] theorem answered_nil : answered [] = [] := rfl

@[simp] theorem answered_append (before after : List (Exchange Remote)) :
    answered (before ++ after) = answered before ++ answered after :=
  List.filterMap_append

@[simp] theorem answered_cons_ok (call : Call) (answer : call.Answer)
    (rest : List (Exchange Remote)) :
    answered (⟨call, Except.ok answer⟩ :: rest) = call :: answered rest := rfl

@[simp] theorem answered_cons_error (call : Call) (err : SyncError)
    (rest : List (Exchange Remote)) :
    answered (⟨call, Except.error err⟩ :: rest) = answered rest := rfl

theorem updatedIn_append (before after : List (Exchange Remote)) :
    updatedIn (before ++ after) = updatedIn before ++ updatedIn after := by
  simp [updatedIn, List.filterMap_append]

theorem deletedIn_append (before after : List (Exchange Remote)) :
    deletedIn (before ++ after) = deletedIn before ++ deletedIn after := by
  simp [deletedIn, List.filterMap_append]

/-- For no keys no hosts are created. -/
theorem createdIn_empty (made : List (Exchange Remote)) : createdIn ∅ made = ∅ := by
  unfold createdIn
  split
  next names _ listed _ =>
    split
    next count =>
      obtain rfl : names = [] := List.eq_nil_of_length_eq_zero count
      have nobody : hostsNamed [] listed = [] := List.filter_eq_nil_iff.2 fun r _ => by
        cases r.name <;> simp
      rw [nobody]
      rfl
    next => rfl
  next => rfl

variable {creates : Declaration} {made : List (Exchange Remote)} {err : SyncError}

theorem Miscreated.asks_create (h : Miscreated creates made err) :
    ∃ x ∈ made, ∃ id specs, x.call = .create id specs := by
  cases h <;> exact ⟨_, .head _, _, _, rfl⟩

theorem Breaks.ne_nil (h : Breaks creates made err) :
    made ≠ [] := by
  cases h with
  | refused before call cause => simp
  | miscreated wrong =>
    obtain ⟨x, mem, -⟩ := wrong.asks_create
    exact List.ne_nil_of_mem mem

/-- After a refused call no other error is left to report. -/
theorem Breaks.eq_refusal {before : List (Exchange Remote)} {call : Call} {cause : SyncError}
    (h : Breaks creates (before ++ [⟨call, Except.error cause⟩]) err) :
    err = call.refusal creates cause := by
  generalize whole : before ++ [⟨call, Except.error cause⟩] = made at h
  cases h with
  | refused =>
    obtain ⟨-, last⟩ := List.append_inj' whole rfl
    cases last
    rfl
  | miscreated wrong =>
    cases wrong with
    | miscounted differ =>
      obtain ⟨-, last⟩ := List.append_inj' (whole.trans (List.nil_append _).symm) rfl
      nomatch last
    | untied count failed =>
      obtain ⟨-, last⟩ := List.append_inj' (whole.trans List.singleton_append.symm) rfl
      nomatch last

end Exchanges

section Loops

variable {α : Type} {call : α → Call} {refusal : α → SyncError → SyncError}
  {record : Execution → α → Execution} {items done : List α} {e e' : Execution}
  {made : List (Exchange Remote)} {cluster : String}

/-- Makes the call of each item until one is refused, and records the items whose calls were
answered. -/
def runEach (call : α → Call) (refusal : α → SyncError → SyncError)
    (record : Execution → α → Execution) : List α → Execution → Program Remote Execution
  | [], e => return e
  | x :: rest, e => do
    match ← Program.request (I := Remote) (call x) with
    | .error err => return { e with failure := some (refusal x err) }
    | .ok _ => runEach call refusal record rest (record e x)

theorem runUpdates_eq_runEach (cluster : String) (updates : List HostUpdate) (e : Execution) :
    runUpdates cluster updates e =
      runEach (.update cluster) (.remote .update ·.name) .recordUpdated updates e := by
  induction updates generalizing e with
  | nil => rfl
  | cons u rest ih =>
    refine congrArg (Program.ask (I := Remote) (.update cluster u)) (funext fun reply => ?_)
    cases reply with
    | error err => rfl
    | ok _ => exact ih _

theorem runDeletes_eq_runEach (cluster : String) (names : List String) (e : Execution) :
    runDeletes cluster names e =
      runEach (.delete cluster) (.remote .delete) .recordDeleted names e := by
  induction names generalizing e with
  | nil => rfl
  | cons name rest ih =>
    refine congrArg (Program.ask (I := Remote) (.delete cluster name)) (funext fun reply => ?_)
    cases reply with
    | error err => rfl
    | ok _ => exact ih _

/-- The calls for some items have been made up to the first that was refused. -/
structure Walked (call : α → Call) (refusal : α → SyncError → SyncError)
    (record : Execution → α → Execution) (items : List α) (e : Execution)
    (made : List (Exchange Remote)) (done : List α) (e' : Execution) : Prop where
  initial : done <+: items
  answers : answered made = done.map call
  hosts : e'.hosts = (done.foldl record e).hosts
  completed : e'.completed = (done.foldl record e).completed
  idle : e.failure.isSome = true → made = [] ∧ e' = e
  finished : e'.failure = none → e.failure = none ∧ done = items
  broken : ∀ err, e'.failure = some err → e.failure = some err ∧ made = [] ∨
    ∃ before x cause, made = before ++ [⟨call x, Except.error cause⟩] ∧ err = refusal x cause

/-- Nothing is called for once the execution is broken. -/
theorem Walked.skipped (broken : e.failure.isSome = true) :
    Walked call refusal record items e [] [] e where
  initial := List.nil_prefix
  answers := rfl
  hosts := rfl
  completed := rfl
  idle _ := ⟨rfl, rfl⟩
  finished failure := by simp [failure] at broken
  broken _ failure := .inl ⟨failure, rfl⟩

theorem Walked.refused (going : e.failure = none) (x : α) (rest : List α) (cause : SyncError) :
    Walked call refusal record (x :: rest) e [⟨call x, Except.error cause⟩] []
      { e with failure := some (refusal x cause) } where
  initial := List.nil_prefix
  answers := rfl
  hosts := rfl
  completed := rfl
  idle broken := by simp [going] at broken
  finished failure := nomatch failure
  broken _ failure := .inr ⟨[], x, cause, rfl, (Option.some.inj failure).symm⟩

/-- One more item before the others. -/
theorem Walked.cons {x : α} (answer : (call x).Answer) (going : e.failure = none)
    (kept : (record e x).failure = e.failure)
    (h : Walked call refusal record items (record e x) made done e') :
    Walked call refusal record (x :: items) e (⟨call x, Except.ok answer⟩ :: made) (x :: done)
      e' where
  initial := List.cons_prefix_cons.2 ⟨rfl, h.initial⟩
  answers := congrArg (call x :: ·) h.answers
  hosts := h.hosts
  completed := h.completed
  idle broken := by simp [going] at broken
  finished failure := ⟨going, congrArg (x :: ·) (h.finished failure).2⟩
  broken err failure := by
    rcases h.broken err failure with ⟨before, -⟩ | ⟨before, y, cause, rfl, same⟩
    · rw [kept, going] at before
      exact nomatch before
    · exact .inr ⟨⟨call x, Except.ok answer⟩ :: before, y, cause, rfl, same⟩

/-- The loop over some items answers for each call it makes. -/
theorem walked_of_follows (kept : ∀ e x, (record e x).failure = e.failure)
    (run : (e.andThen (runEach call refusal record items)).Follows made (.done e')) :
    ∃ done, Walked call refusal record items e made done e' := by
  unfold Execution.andThen at run
  split at run
  next broken =>
    obtain ⟨rfl, same⟩ := Program.follows_done run
    obtain rfl := Program.done.inj same
    exact ⟨[], .skipped broken⟩
  next sound =>
    have going := Option.not_isSome_iff_eq_none.1 sound
    clear sound
    induction items generalizing e made with
    | nil =>
      obtain ⟨rfl, same⟩ := Program.follows_done run
      obtain rfl := Program.done.inj same
      exact ⟨[], List.nil_prefix, rfl, rfl, rfl, fun _ => ⟨rfl, rfl⟩, fun _ => ⟨going, rfl⟩,
        fun _ failure => .inl ⟨failure, rfl⟩⟩
    | cons x rest ih =>
      obtain ⟨(reply : Except SyncError (call x).Answer), others, rfl, onward⟩ :=
        Program.follows_ask run
      cases reply with
      | error cause =>
        obtain ⟨rfl, same⟩ := Program.follows_done onward
        obtain rfl := Program.done.inj same
        exact ⟨[], .refused going x rest cause⟩
      | ok answer =>
        obtain ⟨done, walked⟩ := ih onward ((kept e x).trans going)
        exact ⟨x :: done, walked.cons answer going (kept e x)⟩

end Loops

section Records

theorem Execution.failure_recordUpdated (e : Execution) (u : HostUpdate) :
    (e.recordUpdated u).failure = e.failure := rfl

theorem Execution.failure_recordDeleted (e : Execution) (name : String) :
    (e.recordDeleted name).failure = e.failure := rfl

/-- Taking in some updates is updating the host of each key. -/
theorem Execution.hosts_foldl_recordUpdated (e : Execution) (updates : List HostUpdate) :
    (updates.foldl recordUpdated e).hosts =
      e.hosts.map fun key r => r.afterUpdates key updates := by
  induction updates generalizing e with
  | nil => exact KeyMap.ext (by simp [HostRecord.afterUpdates])
  | cons u rest ih =>
    rw [List.foldl_cons, ih]
    exact KeyMap.ext (by simp [recordUpdated, HostRecord.afterUpdates])

/-- Taking in a delete is dropping the first host of the name. -/
theorem Execution.hosts_recordDeleted (e : Execution) (name : String) :
    (e.recordDeleted name).hosts = e.hosts.dropFirst name := by
  refine KeyMap.ext ?_
  unfold recordDeleted HostMap.dropFirst
  cases found : e.hosts.entries.find? fun h => h.2.name == some name with
  | none => exact (List.eraseP_of_forall_not (List.find?_eq_none.1 found)).symm
  | some dropped =>
    obtain ⟨bears, before, after, split, others⟩ := List.find?_eq_some_iff_append.1 found
    have apart : ∀ h ∈ before, ¬ (h.2.name == some name) = true := by simpa using others
    show (e.hosts.erase dropped.1).entries = e.hosts.entries.eraseP _
    rw [KeyMap.entries_erase_of_eq_append split, split, List.eraseP_append_right _ apart]
    simp [beq_iff_eq.1 bears]

theorem Execution.hosts_foldl_dropFirst (e : Execution) (names : List String) :
    (names.foldl recordDeleted e).hosts = names.foldl HostMap.dropFirst e.hosts := by
  induction names generalizing e with
  | nil => rfl
  | cons name rest ih => rw [List.foldl_cons, ih, hosts_recordDeleted, List.foldl_cons]

/-- If an item records its own action, some items record theirs in their order. -/
theorem carriesOut_foldl {α : Type} {record : Execution → α → Execution} {action : α → Action}
    (step : ∀ e x, ∃ entry : Completed,
      (record e x).completed = e.completed ++ [entry] ∧ entry.CarriesOut (action x))
    {e : Execution} {actions : List Action}
    (before : List.Forall₂ Completed.CarriesOut e.completed actions) (items : List α) :
    List.Forall₂ Completed.CarriesOut (items.foldl record e).completed
      (actions ++ items.map action) := by
  induction items generalizing e actions with
  | nil => simpa using before
  | cons x rest ih =>
    obtain ⟨entry, completed, own⟩ := step e x
    have one : List.Forall₂ Completed.CarriesOut (record e x).completed (actions ++ [action x]) :=
      completed ▸ List.rel_append before (.cons own .nil)
    simpa using ih one

/-- The entries of a finished result are counted by the actions of the plan. -/
theorem counts_of_carriesOut {entries : List Completed} {actions : List Action}
    (all : List.Forall₂ Completed.CarriesOut entries actions) :
    entries.countP Completed.isCreated = (actions.filterMap Action.creates?).length ∧
      entries.countP Completed.isUpdated = (actions.filterMap Action.updates?).length ∧
      entries.countP Completed.isDeleted = (actions.filterMap Action.deletes?).length := by
  induction all with
  | nil => exact ⟨rfl, rfl, rfl⟩
  | cons first _ ih =>
    cases first <;>
      simp [List.countP_cons, List.filterMap_cons, Completed.isCreated, Completed.isUpdated,
        Completed.isDeleted, Action.creates?, Action.updates?, Action.deletes?, ih]

end Records

section Creates

variable {cluster : String} {creates : Declaration} {e e' : Execution}
  {made : List (Exchange Remote)}

/-- How the creates of an execution can end: the exchanges they take and what they make of it. -/
inductive Creating (cluster : String) (creates : Declaration) (e : Execution) :
    List (Exchange Remote) → Execution → Prop
  | nothing (empty : creates = ∅) : Creating cluster creates e [] e
  | refused (cause : SyncError) :
      Creating cluster creates e [⟨.create cluster creates.values, Except.error cause⟩]
        { e with failure := some (.remote .create (", ".intercalate creates.keys) cause) }
  | miscounted {names : List String} (differ : names.length ≠ creates.size) :
      Creating cluster creates e [⟨.create cluster creates.values, Except.ok names⟩]
        { e with failure := some (.reconcile (.countMismatch creates.size names.length)) }
  | unlisted {names : List String} (cause : SyncError) (count : names.length = creates.size) :
      Creating cluster creates e
        [⟨.create cluster creates.values, Except.ok names⟩, ⟨.list cluster, Except.error cause⟩]
        { e with failure := some (.remote .list cluster cause) }
  | untied {names : List String} {listed : List HostRecord} {cause : ReconcileError}
      (count : names.length = creates.size)
      (failed : correlateCreated (.ofDeclaration creates) (hostsNamed names listed) =
        .error cause) :
      Creating cluster creates e
        [⟨.create cluster creates.values, Except.ok names⟩, ⟨.list cluster, Except.ok listed⟩]
        { e with failure := some (.reconcile cause) }
  | created {names : List String} {listed : List HostRecord} {mapped : HostMap}
      (count : names.length = creates.size)
      (tied : correlateCreated (.ofDeclaration creates) (hostsNamed names listed) = .ok mapped) :
      Creating cluster creates e
        [⟨.create cluster creates.values, Except.ok names⟩, ⟨.list cluster, Except.ok listed⟩]
        (e.recordCreated mapped)

theorem ensures_runCreates_creating (cluster : String) (creates : Declaration) (e : Execution) :
    (runCreates cluster creates e).Ensures Recorded [] fun e' made =>
      Creating cluster creates e made e' := by
  rw [runCreates]
  split
  next empty => exact .nothing (KeyMap.isEmpty_iff.1 empty)
  next =>
    rw [Program.ensures_bind, createHosts, ensures_session_bind, ensures_submitCreates]
    rintro reply _ rfl
    cases reply with
    | error cause => exact .refused cause
    | ok names =>
      by_cases count : names.length = creates.size
      · have given : submitted creates (.ok names) = .ok names := if_pos count
        rw [given]
        refine ensures_correlateSubmitted.2 ?_
        rintro reply _ rfl
        cases reply with
        | error cause => exact .unlisted cause count
        | ok listed =>
          dsimp only
          cases tied : correlateCreated (.ofDeclaration creates) (hostsNamed names listed) with
          | error cause => exact .untied count tied
          | ok mapped => exact .created count tied
      · have short : submitted creates (.ok names) =
            .error (.reconcile (.countMismatch creates.size names.length)) := if_neg count
        rw [short]
        exact .miscounted count

/-- An execution takes in the created hosts. -/
structure Creating.Folded (creates : Declaration) (e : Execution) (made : List (Exchange Remote))
    (e' : Execution) : Prop where
  hosts : ∀ rest, (e'.failure.isSome → rest = []) →
    e'.hosts = e.hosts.insertAll (createdIn creates (made ++ rest)).entries
  updates : updatedIn made = []
  deletes : deletedIn made = []
  broken : ∀ err, e'.failure = some err → Breaks creates made err
  complete : e'.failure = none → e.completed = [] →
    List.Forall₂ Completed.CarriesOut e'.completed
      (creates.entries.map fun x => .create x.1 x.2)

/-- Creates that fail leave the hosts as they were. -/
theorem Creating.Folded.failed {err : SyncError} (nobody : createdIn creates made = ∅)
    (updates : updatedIn made = []) (deletes : deletedIn made = [])
    (breaks : Breaks creates made err) :
    Creating.Folded creates e made { e with failure := some err } where
  hosts rest stop := by
    rw [stop rfl, List.append_nil, nobody]
    rfl
  updates := updates
  deletes := deletes
  broken err' failure := by
    obtain rfl := Option.some.inj failure
    exact breaks
  complete fine := (Option.some_ne_none _ fine).elim

theorem Creating.folded (going : e.failure = none) (h : Creating cluster creates e made e') :
    Creating.Folded creates e made e' := by
  cases h with
  | nothing empty =>
    refine ⟨fun rest _ => ?_, rfl, rfl, fun err failure => ?_, fun _ fresh => ?_⟩
    · rw [empty, createdIn_empty]
      rfl
    · rw [going] at failure
      exact nomatch failure
    · rw [empty, fresh]
      exact .nil
  | refused cause => exact .failed rfl rfl rfl (.refused [] _ cause)
  | miscounted differ => exact .failed rfl rfl rfl (.miscreated (.miscounted differ))
  | unlisted cause count => exact .failed rfl rfl rfl (.refused [_] _ cause)
  | untied count failed =>
    exact .failed (by simp [createdIn, count, failed]) rfl rfl (.miscreated (.untied count failed))
  | @created names listed mapped count tied =>
    refine ⟨fun rest stop => ?_, rfl, rfl, fun err failure => ?_, fun _ fresh => ?_⟩
    · simp [createdIn, count, tied]
      rfl
    · exact nomatch going.symm.trans failure
    · have handed := correlateCreated_handed tied
      have recorded : (e.recordCreated mapped).completed =
          mapped.entries.map fun h => .created h.1 h.2 := by
        simp [Execution.recordCreated, fresh]
      rw [recorded, List.forall₂_map_left_iff, List.forall₂_map_right_iff]
      apply KeyMap.forall₂_entries (KeyMap.keys_eq_of_perm handed.keys)
      intro key r spec has wants
      obtain ⟨s, declared, suits⟩ := handed.suits _ has
      obtain rfl := KeyMap.eq_of_mem wants declared
      exact .created suits

/-- Creates whose answer is no good end there. -/
theorem Creating.stops {rest sofar after : List (Exchange Remote)} {err : SyncError}
    (h : Creating cluster creates e made e') (some : creates ≠ ∅)
    (wrong : Miscreated creates sofar err) (split : made ++ rest = sofar ++ after) :
    after = rest ∧ e'.failure = .some err := by
  cases wrong with
  | miscounted differ =>
    cases h with
    | nothing empty => exact absurd empty some
    | refused => nomatch split
    | miscounted => cases split; exact ⟨rfl, rfl⟩
    | unlisted _ count => cases split; exact absurd count differ
    | untied count => cases split; exact absurd count differ
    | created count => cases split; exact absurd count differ
  | untied count failed =>
    cases h with
    | nothing empty => exact absurd empty some
    | refused => nomatch split
    | miscounted differ => cases split; exact absurd count differ
    | unlisted => nomatch split
    | untied _ failed' =>
      cases split
      obtain rfl := Except.error.inj (failed'.symm.trans failed)
      exact ⟨rfl, rfl⟩
    | created _ tied => cases split; exact nomatch failed.symm.trans tied

end Creates

section Execute

variable {cluster : String} {d : HostDiff} {current : Nat} {guardrails : Option Guardrails}
  {hash : String} {hosts : HostMap} {made : List (Exchange Remote)} {e : Execution}

/-- Phases that go on only unless a failure has ended the execution can be grouped. -/
theorem Execution.andThen_bind (e : Execution) (p q : Execution → Program Remote Execution) :
    (e.andThen fun e => p e >>= fun e => e.andThen q) = e.andThen p >>= fun e => e.andThen q := by
  unfold andThen
  split
  next broken => simp [broken]
  next => rfl

theorem execute_passed
    (passes : (HostPlan.ofDiff d current guardrails hash).passesGuardrails = true) :
    (HostPlan.ofDiff d current guardrails hash).execute cluster hosts =
      runCreates cluster d.toCreate { hosts } >>= fun e =>
        e.andThen (runEach (.update cluster) (.remote .update ·.name) .recordUpdated d.toUpdate) >>=
        fun e => e.andThen (runEach (.delete cluster) (.remote .delete) .recordDeleted
          d.toDelete) := by
  have deletes : runDeletes cluster d.toDelete = _ :=
    funext (runDeletes_eq_runEach cluster d.toDelete)
  unfold HostPlan.execute
  rw [HostPlan.ensureGuardrails_passed passes]
  simp only [HostPlan.creates_ofDiff, HostPlan.updates_ofDiff, HostPlan.deletes_ofDiff,
    KeyMap.ofList_entries, Execution.andThen_bind, runUpdates_eq_runEach, deletes]

/-- The phases of an execution that is not rejected. -/
theorem execute_phases
    (passes : (HostPlan.ofDiff d current guardrails hash).passesGuardrails = true)
    (run : ((HostPlan.ofDiff d current guardrails hash).execute cluster hosts).Follows made
      (.done e)) :
    ∃ creating updating deleting updates deletes e₁ e₂, made = creating ++ (updating ++ deleting) ∧
      Creating cluster d.toCreate { hosts } creating e₁ ∧
      Walked (.update cluster) (.remote .update ·.name) .recordUpdated d.toUpdate e₁ updating
        updates e₂ ∧
      Walked (.delete cluster) (.remote .delete) .recordDeleted d.toDelete e₂ deleting
        deletes e := by
  rw [execute_passed passes] at run
  obtain ⟨creating, later, e₁, rfl, first, onward⟩ := Program.follows_bind.1 run
  obtain ⟨updating, deleting, e₂, rfl, second, third⟩ := Program.follows_bind.1 onward
  obtain ⟨updates, updated⟩ := walked_of_follows Execution.failure_recordUpdated second
  obtain ⟨deletes, deleted⟩ := walked_of_follows Execution.failure_recordDeleted third
  have creates := (ensures_runCreates_creating ..).of_follows first (history_recorded creating [])
  exact ⟨creating, updating, deleting, updates, deletes, e₁, e₂, rfl, creates, updated, deleted⟩

/-- What an execution of a plan comes to, by the exchanges it took. -/
structure HostDiff.Folds (d : HostDiff) (P : HostPlan) (start : HostMap)
    (made : List (Exchange Remote)) (e : Execution) : Prop where
  /-- The map takes in the created hosts, then updates the hosts of the keys it has, then drops the
  first host of each deleted name. -/
  hosts : e.hosts = (deletedIn made).foldl HostMap.dropFirst
    ((start.insertAll (createdIn d.toCreate made).entries).map
      fun key r => r.afterUpdates key (updatedIn made))
  /-- Updates are completed in the order of the plan. -/
  updates : updatedIn made <+: P.updates
  /-- So are deletes. -/
  deletes : deletedIn made <+: P.deletes
  /-- Nothing is asked after what breaks the execution, and this is the failure. -/
  silent : ∀ sofar after err, made = sofar ++ after → Breaks d.toCreate sofar err →
    after = [] ∧ e.failure = some err
  /-- A plan that breaks a guardrail fails without a call. -/
  rejected : P.passesGuardrails = false → made = [] ∧
    e = { hosts := start, failure := some (.plan (.guardrails P.violations)) }
  /-- Any other plan fails only by its last exchanges. -/
  broken : P.passesGuardrails = true → ∀ err, e.failure = some err → Breaks d.toCreate made err
  /-- Without a failure the result has one entry for each action of the plan, in its order. -/
  complete : e.failure = none → List.Forall₂ Completed.CarriesOut e.completed P.actions
  /-- Its numbers are those of the plan. -/
  counts : e.failure = none → e.created = P.creates.length ∧ e.updated = P.updates.length ∧
    e.deleted = P.deletes.length

section Phases

variable {creating updating deleting : List (Exchange Remote)} {updates : List HostUpdate}
  {deletes : List String} {e₁ e₂ : Execution}
  (creates : Creating cluster d.toCreate { hosts } creating e₁)
  (updated : Walked (.update cluster) (.remote .update ·.name) .recordUpdated d.toUpdate e₁ updating
    updates e₂)
  (deleted : Walked (.delete cluster) (.remote .delete) .recordDeleted d.toDelete e₂ deleting
    deletes e)

include creates updated deleted

theorem updatedIn_phases : updatedIn (creating ++ (updating ++ deleting)) = updates := by
  have settled : updatedIn updating = updates ∧ updatedIn deleting = [] := by
    unfold updatedIn
    rw [updated.answers, deleted.answers, List.filterMap_map, List.filterMap_map]
    exact ⟨List.filterMap_some, List.filterMap_eq_nil_iff.2 fun _ _ => rfl⟩
  rw [updatedIn_append, updatedIn_append, (creates.folded rfl).updates, settled.1, settled.2]
  simp

theorem deletedIn_phases : deletedIn (creating ++ (updating ++ deleting)) = deletes := by
  have settled : deletedIn updating = [] ∧ deletedIn deleting = deletes := by
    unfold deletedIn
    rw [updated.answers, deleted.answers, List.filterMap_map, List.filterMap_map]
    exact ⟨List.filterMap_eq_nil_iff.2 fun _ _ => rfl, List.filterMap_some⟩
  rw [deletedIn_append, deletedIn_append, (creates.folded rfl).deletes, settled.1, settled.2]
  simp

omit creates in
/-- Nothing follows creates that failed. -/
theorem idle_of_creates_failed (failed : e₁.failure.isSome = true) :
    updating ++ deleting = [] ∧ e = e₁ := by
  obtain ⟨rfl, rfl⟩ := updated.idle failed
  exact deleted.idle failed

theorem hosts_phases : e.hosts = deletes.foldl HostMap.dropFirst
    ((hosts.insertAll (createdIn d.toCreate (creating ++ (updating ++ deleting))).entries).map
      fun key r => r.afterUpdates key updates) := by
  have created := (creates.folded rfl).hosts (updating ++ deleting) fun failed =>
    (idle_of_creates_failed updated deleted failed).1
  rw [deleted.hosts, Execution.hosts_foldl_dropFirst, updated.hosts,
    Execution.hosts_foldl_recordUpdated, created]

theorem breaks_phases {err : SyncError} (failure : e.failure = some err) :
    Breaks d.toCreate (creating ++ (updating ++ deleting)) err := by
  rcases deleted.broken err failure with ⟨failure, rfl⟩ | ⟨before, name, cause, rfl, rfl⟩
  · rcases updated.broken err failure with ⟨failure, rfl⟩ | ⟨before, u, cause, rfl, rfl⟩
    · simpa using (creates.folded rfl).broken err failure
    · rw [List.append_nil, ← List.append_assoc]
      exact .refused _ (.update cluster u) cause
  · rw [← List.append_assoc, ← List.append_assoc]
    exact .refused _ (.delete cluster name) cause

theorem complete_phases (fine : e.failure = none) :
    List.Forall₂ Completed.CarriesOut e.completed d.actions := by
  obtain ⟨fine, rfl⟩ := deleted.finished fine
  obtain ⟨fine, rfl⟩ := updated.finished fine
  rw [deleted.completed, HostDiff.actions]
  refine carriesOut_foldl (fun e name => ⟨_, rfl, .deleted name _⟩) ?_ d.toDelete
  rw [updated.completed]
  exact carriesOut_foldl (fun e u => ⟨_, rfl, .updated u⟩)
    ((creates.folded rfl).complete fine rfl) d.toUpdate

end Phases

/-- What breaks an execution is its end. -/
theorem silent_of_breaks
    (passes : (HostPlan.ofDiff d current guardrails hash).passesGuardrails = true)
    {sofar after : List (Exchange Remote)} {err : SyncError}
    (run : ((HostPlan.ofDiff d current guardrails hash).execute cluster hosts).Follows
      (sofar ++ after) (.done e)) (breaks : Breaks d.toCreate sofar err) :
    after = [] ∧ e.failure = some err := by
  obtain ⟨creating, updating, deleting, updates, deletes, e₁, e₂, split, creates, updated,
    deleted⟩ := execute_phases passes run
  cases breaks with
  | refused before call cause =>
    rw [List.append_assoc] at run
    obtain ⟨rfl, last, ended, failed⟩ := (enacts_execute hosts).silent run ⟨cause, rfl⟩
    obtain rfl := Program.done.inj ended
    obtain ⟨err, failure⟩ := Option.isSome_iff_exists.1 failed
    have breaks := breaks_phases creates updated deleted failure
    rw [← split, List.append_nil] at breaks
    exact ⟨rfl, breaks.eq_refusal ▸ failure⟩
  | miscreated wrong =>
    by_cases empty : d.toCreate = ∅
    · obtain ⟨x, made, id, specs, call⟩ := wrong.asks_create
      have settling : d.Settling cluster x.call :=
        ((conducts_execute ..).asksOnly empty).of_follows run x (List.mem_append_left _ made)
      rw [call] at settling
      exact settling.elim
    · obtain ⟨rfl, failure⟩ := creates.stops empty wrong split.symm
      obtain ⟨quiet, rfl⟩ :=
        idle_of_creates_failed updated deleted (Option.isSome_iff_exists.2 ⟨err, failure⟩)
      exact ⟨quiet, failure⟩

/-- Whatever the cluster answers, an execution folds what was completed into the host map. -/
theorem execute_folds_completed
    (run : ((HostPlan.ofDiff d current guardrails hash).execute cluster hosts).Follows made
      (.done e)) :
    d.Folds (.ofDiff d current guardrails hash) hosts made e := by
  cases passes : (HostPlan.ofDiff d current guardrails hash).passesGuardrails with
  | false =>
    unfold HostPlan.execute at run
    rw [HostPlan.ensureGuardrails_refused passes] at run
    obtain ⟨rfl, same⟩ := Program.follows_done run
    obtain rfl := Program.done.inj same
    constructor
    · exact KeyMap.ext (by simp [createdIn, updatedIn, deletedIn, HostRecord.afterUpdates])
    · exact List.nil_prefix
    · exact List.nil_prefix
    · exact fun sofar after err split breaks =>
        absurd (List.append_eq_nil_iff.1 split.symm).1 breaks.ne_nil
    · exact fun _ => ⟨rfl, rfl⟩
    · exact fun allowed => (Bool.false_ne_true (passes.symm.trans allowed)).elim
    · exact fun fine => (Option.some_ne_none _ fine).elim
    · exact fun fine => (Option.some_ne_none _ fine).elim
  | true =>
    obtain ⟨creating, updating, deleting, updates, deletes, e₁, e₂, rfl, creates, updated,
      deleted⟩ := execute_phases passes run
    have complete := complete_phases creates updated deleted
    constructor
    · rw [updatedIn_phases creates updated deleted, deletedIn_phases creates updated deleted]
      exact hosts_phases creates updated deleted
    · rw [updatedIn_phases creates updated deleted, HostPlan.updates_ofDiff]
      exact updated.initial
    · rw [deletedIn_phases creates updated deleted, HostPlan.deletes_ofDiff]
      exact deleted.initial
    · exact fun sofar after err split breaks => silent_of_breaks passes (split ▸ run) breaks
    · exact fun rejects => (Bool.false_ne_true (rejects.symm.trans passes)).elim
    · exact fun _ err failure => breaks_phases creates updated deleted failure
    · exact complete
    · exact fun fine => counts_of_carriesOut (complete fine)

end Execute

/-- A host to create, one to update and two to delete. -/
def mixedDiff : HostDiff where
  toCreate := .ofList [("c", { zone := "y" })]
  toUpdate := [⟨"a", "h1", true, none, [.assignPublicIp]⟩]
  toDelete := ["h2", "h3"]

/-- All calls but the last delete are answered. -/
def mixedCalls : List (Exchange Remote) :=
  [⟨.create "c" [{ zone := "y" }], Except.ok ["h4"]⟩,
    ⟨.list "c", Except.ok [newHost, firstHost]⟩,
    ⟨.update "c" ⟨"a", "h1", true, none, [.assignPublicIp]⟩, Except.ok ()⟩,
    ⟨.delete "c" "h2", Except.ok ()⟩,
    ⟨.delete "c" "h3", Except.error (.internal "busy")⟩]

/-- The created host, the update and the first delete stay when the second delete is refused. -/
theorem execute_folds_completed_refused :
    ∃ e, ((HostPlan.ofDiff mixedDiff 3 none "").execute "c" recordedTwo).Follows mixedCalls
        (.done e) ∧
      e.hosts = .ofList [("a", { firstHost with assignPublicIp := true }), ("c", newHost)] ∧
      e.failure = some (.remote .delete "h3" (.internal "busy")) ∧
      mixedDiff.Folds (.ofDiff mixedDiff 3 none "") recordedTwo mixedCalls e := by
  have evaluated : ∃ e, ((HostPlan.ofDiff mixedDiff 3 none "").execute "c" recordedTwo).Follows
      mixedCalls (.done e) ∧
      e.hosts = .ofList [("a", { firstHost with assignPublicIp := true }), ("c", newHost)] ∧
      e.failure = some (.remote .delete "h3" (.internal "busy")) :=
    ⟨_, .ask (.ask (.ask (.ask (.ask (.rest _))))), by decide +kernel⟩
  obtain ⟨e, run, hosts, failure⟩ := evaluated
  exact ⟨e, run, hosts, failure, execute_folds_completed run⟩

end HostRoster
