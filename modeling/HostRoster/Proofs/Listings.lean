import HostRoster.Proofs.Readings

/-!
# Listings in pages

A listing asks for one page after the other, and for each page up to three times. A page that is
asked for again is the same page, so what goes wrong on the way shows neither in the hosts nor in
their order; and a page that cannot be had ends the whole listing.
-/
namespace HostRoster

namespace HostPage

/-- A page is the last one if it has no token, or an empty one. -/
def IsLast (p : HostPage) : Prop := p.nextPageToken = none ∨ p.nextPageToken = some ""

theorem next_eq_none {p : HostPage} : p.next = none ↔ p.IsLast := by
  cases p with | mk hosts token => cases token <;> simp [next, IsLast, Option.filter]

theorem next_eq_of_more {p : HostPage} (more : ¬ p.IsLast) : p.next = p.nextPageToken := by
  cases p with | mk hosts token => cases token <;> simp_all [next, IsLast, Option.filter]

end HostPage

/-- A page that is fetched: at most two transient deliveries, and then the one with the page. -/
abbrev Visit := Reading HostPage.ofJson?

/-- A page that cannot be had. -/
abbrev FailedVisit (cluster : String) := ServiceClient.FailedReading cluster HostPage.ofJson?

namespace Visit

/-- The same page without what went wrong before. -/
def untroubled (v : Visit) : Visit :=
  { v with failures := [], transient := by simp, few := by simp }

/-- The token for the page that follows some pages: that of the last of them. -/
def tokenAfter : Option String → List Visit → Option String
  | token, [] => token
  | _, v :: visits => tokenAfter v.value.nextPageToken visits

end Visit

namespace ServiceClient
variable {c : ServiceClient} {cluster : String} {rest : List Delivery} {sent : List HttpRequest}
  {now : Nat}

/-- A request asks for the page of a token, or for the first page if there is none. -/
structure AsksForPage (c : ServiceClient) (cluster : String) (token : Option String)
    (request : HttpRequest) : Prop where
  method : request.method = .get
  url : request.url = c.endpoint ++ "/" ++ c.service ++ "/v1/clusters/" ++ cluster ++ "/hosts"
  query : request.query =
    ("pageSize", toString c.pageSize) :: (token.map fun t => ("pageToken", t)).toList
  token : request.query.lookup "pageToken" = token

/-- Requests for pages that follow each other. Each page is asked for under the token of the page
before it, with one and the same request for every delivery. -/
inductive AsksForPages (c : ServiceClient) (cluster : String) :
    Option String → List Visit → List HttpRequest → Prop
  | none (token : Option String) : AsksForPages c cluster token [] []
  | page {token : Option String} {v : Visit} {visits : List Visit} {request : HttpRequest}
      {others : List HttpRequest} (asks : c.AsksForPage cluster token request)
      (onward : AsksForPages c cluster v.value.nextPageToken visits others) :
      AsksForPages c cluster token (v :: visits)
        (List.replicate v.script.length request ++ others)

/-- The request for the page of a token. -/
def pageRequest (c : ServiceClient) (cluster : String) (token : Option String) : HttpRequest :=
  c.readRequest (c.hostsUrl cluster) (c.pageQuery token)

theorem asksForPage_pageRequest (token : Option String) :
    c.AsksForPage cluster token (c.pageRequest cluster token) where
  method := rfl
  url := rfl
  query := by cases token <;> rfl
  token := by cases token <;> rfl

/-- The requests for pages that follow each other. -/
def visitRequests (c : ServiceClient) (cluster : String) :
    Option String → List Visit → List HttpRequest
  | _, [] => []
  | token, v :: visits =>
    List.replicate v.script.length (c.pageRequest cluster token) ++
      c.visitRequests cluster v.value.nextPageToken visits

theorem asksForPages_visitRequests (token : Option String) (visits : List Visit) :
    c.AsksForPages cluster token visits (c.visitRequests cluster token visits) := by
  induction visits generalizing token with
  | nil => exact .none token
  | cons v visits ih => exact .page (asksForPage_pageRequest token) (ih _)

section Pages
variable {pages : Nat} {token : Option String} {hosts : List ListedHost}

theorem play_listFrom_last (v : Visit) (last : v.value.IsLast) (sent : List HttpRequest)
    (now : Nat) :
    script.play (c.listFrom cluster (pages + 1) token hosts) ⟨v.script ++ rest, sent, now⟩ =
      (.ok (hosts ++ v.value.hosts), ⟨rest,
        sent ++ List.replicate v.script.length (c.pageRequest cluster token), now + v.time⟩) := by
  refine (Server.play_then (play_fetch v (c.pageRequest cluster token) sent now)).trans ?_
  dsimp only
  rw [HostPage.next_eq_none.2 last]
  rfl

theorem play_listFrom_more (v : Visit) (more : ¬ v.value.IsLast) (sent : List HttpRequest)
    (now : Nat) :
    script.play (c.listFrom cluster (pages + 1) token hosts) ⟨v.script ++ rest, sent, now⟩ =
      script.play (c.listFrom cluster pages v.value.nextPageToken (hosts ++ v.value.hosts))
        ⟨rest, sent ++ List.replicate v.script.length (c.pageRequest cluster token),
          now + v.time⟩ := by
  refine (Server.play_then (play_fetch v (c.pageRequest cluster token) sent now)).trans ?_
  rw [← HostPage.next_eq_of_more more]
  dsimp only
  cases next : v.value.next with
  | none => exact absurd (HostPage.next_eq_none.1 next) more
  | some token => rfl

/-- What goes wrong before the pages makes no difference to the result. -/
theorem play_untroubled (visits : List Visit) (sent sent' : List HttpRequest) (now now' : Nat) :
    (script.play (c.listFrom cluster pages token hosts)
        ⟨visits.flatMap Reading.script ++ rest, sent, now⟩).1 =
      (script.play (c.listFrom cluster pages token hosts)
        ⟨(visits.map Visit.untroubled).flatMap Reading.script ++ rest, sent', now'⟩).1 := by
  induction visits generalizing pages token hosts sent sent' now now' with
  | nil => exact play_script_fst ..
  | cons v visits ih =>
    cases pages with
    | zero => rfl
    | succ pages =>
      rw [List.map_cons, List.flatMap_cons, List.flatMap_cons, List.append_assoc,
        List.append_assoc]
      by_cases last : v.value.IsLast
      · rw [play_listFrom_last v last, play_listFrom_last v.untroubled last]
        rfl
      · rw [play_listFrom_more v last, play_listFrom_more v.untroubled last]
        exact ih ..

theorem play_listFrom_failed (v : FailedVisit cluster) (sent : List HttpRequest) (now : Nat) :
    script.play (c.listFrom cluster (pages + 1) token hosts) ⟨v.script ++ rest, sent, now⟩ =
      (.error v.error, ⟨rest,
        sent ++ List.replicate v.script.length (c.pageRequest cluster token), now + v.time⟩) :=
  Server.play_then (play_fetch_failed v (c.pageRequest cluster token) sent now)

/-- Pages that follow each other are fetched one after the other. -/
theorem play_visits {visits : List Visit} (more : ∀ v ∈ visits, ¬ v.value.IsLast)
    (sent : List HttpRequest) (now : Nat) :
    script.play (c.listFrom cluster (visits.length + pages) token hosts)
        ⟨visits.flatMap Reading.script ++ rest, sent, now⟩ =
      script.play (c.listFrom cluster pages (Visit.tokenAfter token visits)
          (hosts ++ visits.flatMap (·.value.hosts)))
        ⟨rest, sent ++ c.visitRequests cluster token visits,
          now + (visits.map Reading.time).sum⟩ := by
  induction visits generalizing token hosts sent now with
  | nil => simp [Visit.tokenAfter, visitRequests]
  | cons v visits ih =>
    obtain ⟨first, others⟩ := List.forall_mem_cons.1 more
    have count : (v :: visits).length + pages = visits.length + pages + 1 := by
      rw [List.length_cons, Nat.add_right_comm]
    rw [count, List.flatMap_cons, List.append_assoc, play_listFrom_more v first, ih others]
    simp [Visit.tokenAfter, visitRequests, Nat.add_assoc]

/-- If a listing succeeds, its hosts are those of the pages it has fetched, up to the last one. By
induction on the number of pages it may have. -/
theorem of_play_listFrom {left : List Delivery} {after : Script} {found : List ListedHost}
    (plays : script.play (c.listFrom cluster pages token hosts) ⟨left, sent, now⟩ =
      (.ok found, after)) :
    ∃ visits last rest, (∀ v ∈ visits, ¬ v.value.IsLast) ∧ last.value.IsLast ∧
      left = (visits ++ [last]).flatMap Reading.script ++ rest ∧
      found = hosts ++ (visits ++ [last]).flatMap (·.value.hosts) ∧
      after.sent = sent ++ c.visitRequests cluster token (visits ++ [last]) := by
  induction pages generalizing token hosts left sent now with
  | zero => cases plays
  | succ pages ih =>
    cases fetched : script.play (fetch HostPage.ofJson? (c.pageRequest cluster token) cluster)
      ⟨left, sent, now⟩ with
    | mk result after =>
      have onward := (Server.play_then fetched).symm.trans plays
      cases result with
      | error e => cases onward
      | ok page =>
        obtain ⟨v, rest, rfl, rfl, rfl⟩ := exists_reading fetched
        by_cases last : v.value.IsLast
        · rw [play_listFrom_last v last] at plays
          cases plays
          exact ⟨[], v, rest, by simp, last, by simp, by simp, by simp [visitRequests]⟩
        · rw [play_listFrom_more v last] at plays
          obtain ⟨visits, w, rest, more, final, rfl, rfl, same⟩ := ih plays
          refine ⟨v :: visits, w, rest, List.forall_mem_cons.2 ⟨last, more⟩, final, ?_, ?_, ?_⟩
          · simp
          · simp
          · simp [visitRequests, same]

/-- Limits that no listing of so many deliveries can come to make no difference. By induction on
one of them: each page takes a delivery at least. -/
theorem play_listFrom_unlimited {limit : Nat} {left : List Delivery} (enough : left.length < pages)
    (enough' : left.length < limit) (sent : List HttpRequest) (now : Nat) :
    script.play (c.listFrom cluster pages token hosts) ⟨left, sent, now⟩ =
      script.play (c.listFrom cluster limit token hosts) ⟨left, sent, now⟩ := by
  induction pages generalizing limit token hosts left sent now with
  | zero => omega
  | succ pages ih =>
    cases limit with
    | zero => omega
    | succ limit =>
      cases fetched : script.play (fetch HostPage.ofJson? (c.pageRequest cluster token) cluster)
        ⟨left, sent, now⟩ with
      | mk result after =>
        refine (Server.play_then fetched).trans (Eq.symm ((Server.play_then fetched).trans ?_))
        cases result with
        | error e => rfl
        | ok page =>
          obtain ⟨v, rest, rfl, rfl, rfl⟩ := exists_reading fetched
          dsimp only
          cases v.value.next with
          | none => rfl
          | some token =>
            have shorter : rest.length < (v.script ++ rest).length := by
              simp [Reading.script]
              omega
            exact (ih (by omega) (by omega) ..).symm

end Pages

theorem listFrom_limit (limit pages : Nat) (token : Option String) (hosts : List ListedHost) :
    { c with pageLimit := limit }.listFrom cluster pages token hosts =
      c.listFrom cluster pages token hosts := by
  induction pages generalizing token hosts with
  | zero => rfl
  | succ pages ih =>
    simp only [listFrom, ih]
    rfl

theorem asksOnly_listFrom (pages : Nat) (token : Option String) (hosts : List ListedHost) :
    (c.listFrom cluster pages token hosts).AsksOnly (Lasting c.requestTimeout) := by
  induction pages generalizing token hosts with
  | zero => trivial
  | succ pages ih =>
    have lasts : (fetch HostPage.ofJson? (c.pageRequest cluster token) cluster).AsksOnly
        (Lasting c.requestTimeout) := asksOnly_readWithin retryWaits
    refine lasts.bind fun result => ?_
    cases result with
    | error e => trivial
    | ok page =>
      dsimp only
      cases page.next with
      | none => trivial
      | some token => exact ih ..

/-- Lists the hosts of a cluster on a machine whose answers are given in advance. -/
def listing (c : ServiceClient) (cluster : String) (w : World) :
    Run Machine World (Except ApiError (List ListedHost)) :=
  w.run ((c.listHosts cluster).interpret Machine.network)

/-- A listing as it is played with what the machine delivers. -/
def listed (c : ServiceClient) (cluster : String) (w : World) :
    Except ApiError (List ListedHost) × Script :=
  script.play (c.listFrom cluster c.pageLimit none []) { left := w.deliveries c.requestTimeout }

theorem listing_eq (c : ServiceClient) (cluster : String) (w : World) :
    (c.listing cluster w).value = some (c.listed cluster w).1 ∧
      sentRequests (c.listing cluster w).asked = (c.listed cluster w).2.sent := by
  have lasts : (c.listHosts cluster).AsksOnly (Lasting c.requestTimeout) :=
    asksOnly_listFrom c.pageLimit none []
  obtain ⟨value, after⟩ := run_network lasts 0 w []
  exact ⟨value, (congrArg Script.sent after).symm⟩

theorem listing_of_ok {w : World} {hosts : List ListedHost}
    (succeeds : (c.listing cluster w).value = some (.ok hosts)) :
    ∃ visits last rest, (∀ v ∈ visits, ¬ v.value.IsLast) ∧ last.value.IsLast ∧
      w.deliveries c.requestTimeout = (visits ++ [last]).flatMap Reading.script ++ rest ∧
      hosts = (visits ++ [last]).flatMap (·.value.hosts) ∧
      c.AsksForPages cluster none (visits ++ [last])
        (sentRequests (c.listing cluster w).asked) := by
  obtain ⟨value, asked⟩ := c.listing_eq cluster w
  have plays : c.listed cluster w = (.ok hosts, (c.listed cluster w).2) :=
    Prod.ext (Option.some.inj (value.symm.trans succeeds)) rfl
  obtain ⟨visits, last, rest, more, final, delivered, rfl, sent⟩ := of_play_listFrom plays
  refine ⟨visits, last, rest, more, final, delivered, rfl, ?_⟩
  rw [asked, sent]
  exact asksForPages_visitRequests none (visits ++ [last])

theorem listing_untroubled {w w' : World} {visits : List Visit} {rest : List Delivery}
    (troubled : w.deliveries c.requestTimeout = visits.flatMap Reading.script ++ rest)
    (untroubled : w'.deliveries c.requestTimeout = visits.map (·.delivery) ++ rest) :
    (c.listing cluster w).value = (c.listing cluster w').value := by
  have same : visits.map (·.delivery) = (visits.map Visit.untroubled).flatMap Reading.script := by
    rw [List.flatMap_map]
    exact List.map_eq_flatMap
  rw [(c.listing_eq cluster w).1, (c.listing_eq cluster w').1, listed, listed, troubled, untroubled,
    same]
  exact congrArg some (play_untroubled ..)

/-- A listing comes to the page after some pages if it may have one more. -/
theorem exists_listed_rest {w : World} {visits : List Visit} {rest : List Delivery}
    (more : ∀ v ∈ visits, ¬ v.value.IsLast) (within : visits.length < c.pageLimit)
    (delivered : w.deliveries c.requestTimeout = visits.flatMap Reading.script ++ rest) :
    ∃ pages, c.listed cluster w =
      script.play (c.listFrom cluster (pages + 1) (Visit.tokenAfter none visits)
          (visits.flatMap (·.value.hosts)))
        ⟨rest, c.visitRequests cluster none visits, (visits.map Reading.time).sum⟩ := by
  obtain ⟨pages, limit⟩ := Nat.exists_eq_add_of_lt within
  refine ⟨pages, ?_⟩
  rw [listed, limit, delivered, Nat.add_assoc, play_visits more, List.nil_append, List.nil_append,
    Nat.zero_add]

/-- How a listing comes through its pages and through what goes wrong on the way, whatever is
delivered to requests that may take as long as those of the client. -/
structure ListsInFull (c : ServiceClient) (cluster : String) : Prop where
  /-- It succeeds only with the hosts of all pages it has fetched, one page after the other. The
  first page is asked for without a token and every other one under the token of the page before;
  the last one has no token, or an empty one. -/
  complete : ∀ (w : World) (hosts : List ListedHost),
    (c.listing cluster w).value = some (.ok hosts) →
      ∃ visits last rest, (∀ v ∈ visits, ¬ v.value.IsLast) ∧ last.value.IsLast ∧
        w.deliveries c.requestTimeout = (visits ++ [last]).flatMap Reading.script ++ rest ∧
        hosts = (visits ++ [last]).flatMap (·.value.hosts) ∧
        c.AsksForPages cluster none (visits ++ [last]) (sentRequests (c.listing cluster w).asked)
  /-- Up to two transient deliveries before each page make no difference to the result. -/
  patient : ∀ (w w' : World) (visits : List Visit) (rest : List Delivery),
    w.deliveries c.requestTimeout = visits.flatMap Reading.script ++ rest →
    w'.deliveries c.requestTimeout = visits.map (·.delivery) ++ rest →
      (c.listing cluster w).value = (c.listing cluster w').value
  /-- It succeeds whenever it gets pages up to a last one, of which there may be as many as the
  listing may have. -/
  succeeds : ∀ (w : World) (visits : List Visit) (last : Visit) (rest : List Delivery),
    (∀ v ∈ visits, ¬ v.value.IsLast) → last.value.IsLast → visits.length < c.pageLimit →
    w.deliveries c.requestTimeout = (visits ++ [last]).flatMap Reading.script ++ rest →
      (c.listing cluster w).value = some (.ok ((visits ++ [last]).flatMap (·.value.hosts)))
  /-- A page that meets a third transient delivery, any other status of failure or a body that is no
  page ends the whole listing with that error, after at most three requests for the page. -/
  fails : ∀ (w : World) (visits : List Visit) (failed : FailedVisit cluster)
    (rest : List Delivery), (∀ v ∈ visits, ¬ v.value.IsLast) → visits.length < c.pageLimit →
    w.deliveries c.requestTimeout = visits.flatMap Reading.script ++ (failed.script ++ rest) →
      (c.listing cluster w).value = some (.error failed.error) ∧
        ∃ asked request, sentRequests (c.listing cluster w).asked =
            asked ++ List.replicate failed.script.length request ∧
          c.AsksForPages cluster none visits asked ∧
          c.AsksForPage cluster (Visit.tokenAfter none visits) request ∧
          failed.script.length ≤ 3
  /-- How many pages it may have never matters as long as there are fewer answers: any such limit
  makes for the same result and the same requests. -/
  unlimited : ∀ (w : World) (limit : Nat), w.responses.length < c.pageLimit →
    w.responses.length < limit →
      ({ c with pageLimit := limit }.listing cluster w).value = (c.listing cluster w).value ∧
        sentRequests ({ c with pageLimit := limit }.listing cluster w).asked =
          sentRequests (c.listing cluster w).asked

/-- A listing survives its pages, and what passes by itself. -/
theorem listing_survives (c : ServiceClient) (cluster : String) : c.ListsInFull cluster where
  complete w hosts := listing_of_ok
  patient w w' visits rest := listing_untroubled
  succeeds w visits last rest more final within delivered := by
    rw [List.flatMap_append, List.append_assoc, List.flatMap_singleton] at delivered
    obtain ⟨pages, comes⟩ := exists_listed_rest more within delivered
    rw [(c.listing_eq cluster w).1, comes, play_listFrom_last last final, List.flatMap_append,
      List.flatMap_singleton]
  fails w visits failed rest more within delivered := by
    obtain ⟨pages, comes⟩ := exists_listed_rest more within delivered
    rw [(c.listing_eq cluster w).1, (c.listing_eq cluster w).2, comes, play_listFrom_failed failed]
    have few := failed.few
    exact ⟨rfl, _, _, rfl, asksForPages_visitRequests none visits, asksForPage_pageRequest _,
      by simp [FailedReading.script]; omega⟩
  unlimited w limit enough enough' := by
    have count : (w.deliveries c.requestTimeout).length = w.responses.length := by
      simp [World.deliveries]
    have same : { c with pageLimit := limit }.listed cluster w = c.listed cluster w := by
      rw [listed, listFrom_limit]
      exact play_listFrom_unlimited (count ▸ enough') (count ▸ enough) [] 0
    obtain ⟨value, asked⟩ := c.listing_eq cluster w
    obtain ⟨value', asked'⟩ := { c with pageLimit := limit }.listing_eq cluster w
    exact ⟨value'.trans ((congrArg (some ·.1) same).trans value.symm),
      asked'.trans ((congrArg (·.2.sent) same).trans asked.symm)⟩

/-- A host of which the service tells no more than its name and zone. -/
def barelyListed (name zone : String) : ListedHost where
  name := name
  clusterId := ""
  zoneId := zone
  subnetId := none
  assignPublicIp := false
  replicationSource := none
  role := .unknown
  health := .unknown

/-- A page with a token; before it, a request took too long and another one came too soon. -/
def pageAfterTrouble : Visit where
  failures := [⟨.error World.timedOut, 30000⟩, ⟨.ok { status := 429 }, 40⟩]
  response.status := 200
  response.body :=
    "\x7b\"hosts\":[\x7b\"name\":\"a\",\"zoneId\":\"z\"\x7d],\"nextPageToken\":\"p2\"\x7d"
  took := 250
  value := ⟨[barelyListed "a" "z"], some "p2"⟩
  transient := by simp [Transient]
  few := by decide
  success := by decide
  body := by decide +kernel

/-- A page with an empty token. -/
def emptyPage : Visit where
  failures := []
  response.status := 200
  response.body := "\x7b\"nextPageToken\":\"\"\x7d"
  value := ⟨[], some ""⟩
  transient := by simp
  few := by decide
  success := by decide
  body := by decide +kernel

/-- A page that meets three transient deliveries. -/
def pageInVain (cluster : String) : FailedVisit cluster where
  failures := [⟨.ok { status := 429 }, 0⟩, ⟨.error "reset", 0⟩]
  last := ⟨.error "reset", 0⟩
  error := .network "Request failed: reset"
  transient := by simp [Transient]
  few := by decide
  fails := .unsent "reset" 0
  tired _ := rfl

theorem listing_survives_trouble :
    ((new "token" "https://service").listing "c1"
        (worldOf (pageAfterTrouble.script ++ emptyPage.script))).value =
      some (.ok [barelyListed "a" "z"]) ∧
    ((new "token" "https://service").listing "c1"
        (worldOf (pageAfterTrouble.script ++ (pageInVain "c1").script))).value =
      some (.error (.network "Request failed: reset")) := by
  have more : ∀ v ∈ [pageAfterTrouble], ¬ v.value.IsLast := by
    simp [HostPage.IsLast, pageAfterTrouble]
  have lists := listing_survives (new "token" "https://service") "c1"
  constructor
  · exact lists.succeeds _ [pageAfterTrouble] emptyPage [] more (.inr rfl) (by decide) rfl
  · exact (lists.fails _ [pageAfterTrouble] (pageInVain "c1") [] more (by decide) rfl).1

end ServiceClient

end HostRoster
