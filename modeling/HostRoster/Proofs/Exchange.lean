import HostRoster.Program.Server
import HostRoster.Remote

/-!
# Runs as exchanges

A run of a program is the list of requests it asked with the replies they got. What
a program guarantees is stated against a law of the remote side: a relation that
says which replies it may give in which state, and what becomes of that state. A
server that keeps the law gives rise to such runs and no others.
-/
namespace HostRoster

/-- A request together with the reply it got. -/
structure Exchange (I : Interface) where
  request : I.Request
  reply : I.Reply request

variable {I : Interface} {α β η σ : Type}

namespace Program

/-- After the exchanges the first program has come to the second. -/
inductive Follows : Program I α → List (Exchange I) → Program I α → Prop
  | rest (p : Program I α) : Follows p [] p
  | ask {r : I.Request} {next : I.Reply r → Program I α} {reply : I.Reply r}
      {exchanges : List (Exchange I)} {q : Program I α} (h : Follows (next reply) exchanges q) :
      Follows (.ask r next) (⟨r, reply⟩ :: exchanges) q

theorem follows_done {value : α} {exchanges : List (Exchange I)} {q : Program I α}
    (h : Follows (.done value) exchanges q) : exchanges = [] ∧ q = .done value := by
  cases h
  exact ⟨rfl, rfl⟩

theorem follows_ask {r : I.Request} {next : I.Reply r → Program I α}
    {exchanges : List (Exchange I)} {value : α}
    (h : Follows (.ask r next) exchanges (.done value)) :
    ∃ reply rest, exchanges = ⟨r, reply⟩ :: rest ∧ Follows (next reply) rest (.done value) := by
  cases h with
  | ask rest => exact ⟨_, _, rfl, rest⟩

theorem follows_cons {r : I.Request} {next : I.Reply r → Program I α} {e : Exchange I}
    {rest : List (Exchange I)} {q : Program I α} (h : Follows (.ask r next) (e :: rest) q) :
    ∃ reply, e = ⟨r, reply⟩ ∧ Follows (next reply) rest q := by
  cases h with
  | ask rest => exact ⟨_, rfl, rest⟩

/-- Against a remote side that moves by `law`, every run from the state `h` ends with a
value and a state that satisfy `post`. -/
def Ensures (law : η → Exchange I → η → Prop) : Program I α → η → (α → η → Prop) → Prop
  | .done value, h, post => post value h
  | .ask r next, h, post => ∀ reply h', law h ⟨r, reply⟩ h' → (next reply).Ensures law h' post

variable {law : η → Exchange I → η → Prop}

theorem Ensures.mono {p : Program I α} {h : η} {post weaker : α → η → Prop}
    (hp : p.Ensures law h post) (imp : ∀ value h', post value h' → weaker value h') :
    p.Ensures law h weaker := by
  induction p generalizing h with
  | done value => exact imp value h hp
  | ask r next ih => exact fun reply h' moved => ih reply (hp reply h' moved)

theorem Ensures.and {p : Program I α} {h : η} {post other : α → η → Prop}
    (hp : p.Ensures law h post) (ho : p.Ensures law h other) :
    p.Ensures law h fun value h' => post value h' ∧ other value h' := by
  induction p generalizing h with
  | done value => exact ⟨hp, ho⟩
  | ask r next ih => exact fun reply h' moved => ih reply (hp reply h' moved) (ho reply h' moved)

theorem Ensures.of_forall {p : Program I α} {h : η} {post : α → η → Prop}
    (all : ∀ value h', post value h') : p.Ensures law h post := by
  induction p generalizing h with
  | done value => exact all value h
  | ask r next ih => exact fun reply h' _ => ih reply

theorem ensures_bind {p : Program I α} {f : α → Program I β} {h : η} {post : β → η → Prop} :
    (p >>= f).Ensures law h post ↔
      p.Ensures law h fun value h' => (f value).Ensures law h' post := by
  induction p generalizing h with
  | done value => exact Iff.rfl
  | ask r next ih =>
    exact forall_congr' fun reply => forall_congr' fun h' => imp_congr_right fun _ => ih reply

end Program

/-- A remote side that moves by `law` may take part in the exchanges from the first
state to the second. -/
inductive History (law : η → Exchange I → η → Prop) : η → List (Exchange I) → η → Prop
  | rest (h : η) : History law h [] h
  | move {h mid last : η} {e : Exchange I} {rest : List (Exchange I)} (first : law h e mid)
      (others : History law mid rest last) : History law h (e :: rest) last

/-- What a program ensures holds at the end of each of its runs. -/
theorem Program.Ensures.of_follows {law : η → Exchange I → η → Prop} {p : Program I α} {h h' : η}
    {post : α → η → Prop} {exchanges : List (Exchange I)} {value : α}
    (hp : p.Ensures law h post) (run : p.Follows exchanges (.done value))
    (history : History law h exchanges h') : post value h' := by
  generalize goal : Program.done value = q at run
  induction run generalizing h with
  | rest p =>
    subst goal
    cases history
    exact hp
  | ask _ ih =>
    cases history with
    | move first others => exact ih (hp _ _ first) others goal

/-- The law that records the exchanges in the state and leaves every reply open. -/
def Recorded (sofar : List (Exchange I)) (e : Exchange I) (now : List (Exchange I)) : Prop :=
  now = sofar ++ [e]

/-- Exchanges are only ever added. -/
theorem Program.ensures_recorded (p : Program I α) (sofar : List (Exchange I)) :
    p.Ensures Recorded sofar fun _ now => sofar <+: now := by
  induction p generalizing sofar with
  | done value => exact List.prefix_refl sofar
  | ask r next ih =>
    rintro reply _ rfl
    exact (ih reply _).mono fun _ now more => (List.prefix_append ..).trans more

theorem history_recorded (exchanges sofar : List (Exchange I)) :
    History Recorded sofar exchanges (sofar ++ exchanges) := by
  induction exchanges generalizing sofar with
  | nil => simpa using History.rest sofar
  | cons e rest ih => exact .move rfl (by simpa using ih (sofar ++ [e]))

namespace Server

/-- The reply to a request that is given its time, and the state after it. -/
def serve (server : Server I σ) (r : I.Request) (s : σ) : I.Reply r × σ :=
  let accepted := server.accept r s
  accepted.complete accepted.state

/-- Without a limit a request is given its time. -/
theorem run_ask (server : Server I σ) (r : I.Request) (next : I.Reply r → Program I α)
    (elapsed : Nat) (s : σ) : server.run none (.ask r next) elapsed s =
      let rest := server.run none (next (server.serve r s).1)
        (elapsed + (server.accept r s).delay) (server.serve r s).2
      { rest with asked := r :: rest.asked } := rfl

/-- A run without a limit asks its requests one after the other until it has a value,
and the server's states form a history of any law the server keeps. -/
theorem run_follows {server : Server I σ} {law : η → Exchange I → η → Prop} {view : σ → η}
    {valid : σ → Prop}
    (keeps : ∀ s r, valid s → valid (server.serve r s).2 ∧
      law (view s) ⟨r, (server.serve r s).1⟩ (view (server.serve r s).2))
    (p : Program I α) (elapsed : Nat) {s : σ} (start : valid s) :
    ∃ value exchanges,
      (server.run none p elapsed s).value = some value ∧
      (server.run none p elapsed s).asked = exchanges.map Exchange.request ∧
      p.Follows exchanges (.done value) ∧
      History law (view s) exchanges (view (server.run none p elapsed s).state) ∧
      valid (server.run none p elapsed s).state := by
  induction p generalizing elapsed s with
  | done value => exact ⟨value, [], rfl, rfl, .rest _, .rest _, start⟩
  | ask r next ih =>
    obtain ⟨kept, moved⟩ := keeps s r start
    obtain ⟨value, exchanges, hvalue, hasked, run, history, last⟩ :=
      ih (server.serve r s).1 (elapsed + (server.accept r s).delay) kept
    exact ⟨value, ⟨r, (server.serve r s).1⟩ :: exchanges, hvalue, congrArg (r :: ·) hasked,
      .ask run, .move moved history, last⟩

end Server

/-- What follows a session's first part also answers for its failure. -/
theorem ensures_session_bind {law : η → Exchange Remote → η → Prop} {x : Session α}
    {f : α → Session β} {h : η} {post : Except SyncError β → η → Prop} :
    (x >>= f).run.Ensures law h post ↔ x.run.Ensures law h fun result h' =>
      match result with
      | .ok value => (f value).run.Ensures law h' post
      | .error e => post (.error e) h' := by
  rw [ExceptT.run_bind, Program.ensures_bind]
  refine iff_of_eq (congrArg (x.run.Ensures law h) (funext fun result => ?_))
  cases result <;> rfl

theorem ensures_lift {law : η → Exchange Remote → η → Prop} {p : Program Remote α} {h : η}
    {post : Except SyncError α → η → Prop} :
    (ExceptT.lift p : Session α).run.Ensures law h post ↔
      p.Ensures law h fun value h' => post (.ok value) h' := by
  rw [ExceptT.run_lift, ← bind_pure_comp, Program.ensures_bind]
  rfl

theorem run_listHosts_bind (cluster : String) (f : List HostRecord → Session α) :
    (listHosts cluster >>= f).run =
      .ask (.list cluster) fun (reply : Except SyncError (List HostRecord)) =>
        match reply with
        | .ok listed => (f listed).run
        | .error e => .done (.error (.remote .list cluster e)) := by
  refine congrArg (Program.ask _) (funext fun reply => ?_)
  cases reply <;> rfl

/-- A run that begins with a listing goes on with what it does with the listed hosts. -/
theorem follows_listing {cluster : String} {f : List HostRecord → Session α}
    {listed : List HostRecord} {rest : List (Exchange Remote)}
    {q : Program Remote (Except SyncError α)} :
    (listHosts cluster >>= f).run.Follows (⟨.list cluster, Except.ok listed⟩ :: rest) q ↔
      (f listed).run.Follows rest q := by
  rw [run_listHosts_bind]
  constructor
  · intro run
    obtain ⟨reply, same, after⟩ := Program.follows_cons run
    cases same
    exact after
  · intro after
    exact .ask after

/-- Two listings to which a run responds alike make no difference to it. -/
theorem follows_listing_congr {cluster : String} {f : List HostRecord → Session α}
    {listed other : List HostRecord} (eq : f listed = f other) {rest : List (Exchange Remote)}
    {q : Program Remote (Except SyncError α)} :
    (listHosts cluster >>= f).run.Follows (⟨.list cluster, Except.ok listed⟩ :: rest) q ↔
      (listHosts cluster >>= f).run.Follows (⟨.list cluster, Except.ok other⟩ :: rest) q := by
  rw [follows_listing, follows_listing, eq]

theorem ensures_listHosts {law : η → Exchange Remote → η → Prop} {cluster : String} {h : η}
    {post : Except SyncError (List HostRecord) → η → Prop} :
    (listHosts cluster).run.Ensures law h post ↔
      ∀ (reply : Except SyncError (List HostRecord)) h', law h ⟨.list cluster, reply⟩ h' →
        post (reply.mapError (.remote .list cluster)) h' := by
  refine forall_congr' fun reply => forall_congr' fun h' => imp_congr_right fun _ => ?_
  cases reply <;> rfl

end HostRoster
