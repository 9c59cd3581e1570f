/-
This file proves which walks over pages end on a server whose answers do not
change. A page may name any page as the next one, also itself or one that came
before it. A server that names finitely many pages either leads a walk to a page
that names no other or cannot be had, or runs it in a circle; the walk ends in
the first case, and in the second it asks for pages without end. A list that
comes in numbered pages ends at a page that names itself, but other circles it
follows as well.
-/

import CiTelemetry.Proofs.RequestRetries
import CiTelemetry.Proofs.ResumedWalks
import CiTelemetry.Proofs.WalkTermination
import CiTelemetry.Remote.Paths
import Mathlib.Data.Fintype.Card
import Mathlib.Data.Set.Finite.Basic
import Mathlib.Logic.Relation

namespace CiTelemetry

variable {α : Type}

/-! ### Circles of pages -/

section Circles

variable {table : PageTable α} {cursor : Option String}

/-- The page at a cursor names the page at another one as the next. -/
def NamesNext (table : PageTable α) (cursor next : Option String) : Prop :=
  ∃ page name, table cursor = .ok page ∧ page.nextCursor? = some name ∧ next = some name

/-- The pages from a cursor on run into a circle: one of them leads back to itself. -/
def Circles (table : PageTable α) (cursor : Option String) : Prop :=
  ∃ repeated, Relation.ReflTransGen (NamesNext table) cursor repeated ∧
    Relation.TransGen (NamesNext table) repeated repeated

/-- Pages that run into a circle go on, and still do so after the first of them. -/
theorem Circles.goesOn (circles : Circles table cursor) :
    ∃ page next, table cursor = .ok page ∧ page.nextCursor? = some next ∧
      Circles table (some next) := by
  obtain ⟨repeated, leads, circle⟩ := circles
  rcases leads.cases_head with rfl | ⟨second, first, rest⟩
  · obtain ⟨second, first, rest⟩ := Relation.TransGen.head'_iff.mp circle
    obtain ⟨page, next, answered, continues, rfl⟩ := first
    exact ⟨page, next, answered, continues, _, rest, circle⟩
  · obtain ⟨page, next, answered, continues, rfl⟩ := first
    exact ⟨page, next, answered, continues, repeated, rest, circle⟩

/-- A stretch of pages that ends runs into no circle. -/
theorem PageStretch.not_circles {pages : List (Page α)} {failure : Option SyncError}
    (stretch : PageStretch table cursor pages failure) : ¬ Circles table cursor := by
  induction stretch with
  | failed failed =>
    intro circles
    obtain ⟨page, next, answered, _⟩ := circles.goesOn
    rw [failed] at answered
    cases answered
  | last found ends =>
    intro circles
    obtain ⟨page, next, answered, continues, _⟩ := circles.goesOn
    rw [found] at answered
    cases answered
    rw [ends] at continues
    cases continues
  | more found goesOn _ inductionHypothesis =>
    intro circles
    obtain ⟨page, next, answered, continues, later⟩ := circles.goesOn
    rw [found] at answered
    cases answered
    rw [goesOn] at continues
    cases continues
    exact inductionHypothesis later

/-- The cursors that a walk from a cursor on comes to. -/
abbrev Visited (table : PageTable α) (cursor : Option String) :=
  {visited // Relation.ReflTransGen (NamesNext table) cursor visited}

/-- A walk comes to one of them after another one. -/
def Visited.After (later earlier : Visited table cursor) : Prop :=
  Relation.TransGen (NamesNext table) earlier.1 later.1

/-- A walk that runs into no circle does not come back to a page, so that it can only go on for so
long if it comes to finitely many. -/
theorem wellFounded_after (finite : {next | ∃ cursor, NamesNext table cursor next}.Finite)
    (straight : ¬ Circles table cursor) :
    WellFounded (Visited.After : Visited table cursor → Visited table cursor → Prop) := by
  have finitelyMany : {c | Relation.ReflTransGen (NamesNext table) cursor c}.Finite := by
    refine (finite.insert cursor).subset fun c leads => ?_
    rcases leads.cases_tail with rfl | ⟨before, _, named⟩
    · exact .inl rfl
    · exact .inr ⟨before, named⟩
  have : Finite (Visited table cursor) := finitelyMany
  have : IsTrans (Visited table cursor) Visited.After :=
    ⟨fun _ _ _ first second => second.trans first⟩
  have : Std.Irrefl (Visited.After : Visited table cursor → Visited table cursor → Prop) :=
    ⟨fun repeated circle => straight ⟨repeated.1, repeated.2, circle⟩⟩
  exact Finite.wellFounded_of_trans_of_irrefl _

/-- Pages that run into no circle end, where finitely many are named. -/
theorem exists_stretch (finite : {next | ∃ cursor, NamesNext table cursor next}.Finite)
    (straight : ¬ Circles table cursor) :
    ∃ pages failure, PageStretch table cursor pages failure := by
  refine (wellFounded_after finite straight).induction
    (C := fun c => ∃ pages failure, PageStretch table c.1 pages failure) ⟨cursor, .refl⟩ ?_
  rintro ⟨c, leads⟩ inductionHypothesis
  cases answered : table c with
  | error error => exact ⟨[], some error, .failed answered⟩
  | ok page =>
    cases continues : page.nextCursor? with
    | none => exact ⟨[page], none, .last answered continues⟩
    | some next =>
      have named : NamesNext table c (some next) := ⟨page, next, answered, continues, rfl⟩
      obtain ⟨pages, failure, others⟩ :=
        inductionHypothesis ⟨some next, leads.tail named⟩ (.single named)
      exact ⟨page :: pages, failure, .more answered continues others⟩

end Circles

/-! ### Walks that end and walks that do not -/

section Walks

variable {Op : Type} {Reply : Op → Type} {answers : (op : Op) → Reply op}

/-- A walk that ends in the same way whatever its allowance is, if only it is large enough. -/
def Terminating (answers : (op : Op) → Reply op) (walk : (allowance : Nat) → Attempt Op Reply α) :
    Prop :=
  ∃ outcome calls enough, ∀ allowance, enough ≤ allowance →
    Ends answers (walk allowance) outcome calls

/-- A walk that reads at least one page. -/
theorem Terminating.of_succ {walk : (allowance : Nat) → Attempt Op Reply α} (outcome : Outcome α)
    (calls : List Op) (enough : Nat)
    (ends : ∀ allowance, enough ≤ allowance → Ends answers (walk (allowance + 1)) outcome calls) :
    Terminating answers walk := by
  refine ⟨outcome, calls, enough + 1, fun allowance isEnough => ?_⟩
  obtain ⟨allowance, rfl⟩ : ∃ less, allowance = less + 1 := ⟨allowance - 1, by omega⟩
  exact ends allowance (Nat.le_of_succ_le_succ isEnough)

/-- A walk whose items are put together with others. -/
theorem Terminating.map {β : Type} {walk : (allowance : Nat) → Attempt Op Reply α}
    (terminating : Terminating answers walk) (change : α → β) :
    Terminating answers fun allowance => walk allowance >>= fun found => pure (change found) := by
  obtain ⟨outcome, calls, enough, ends⟩ := terminating
  cases outcome with
  | error error =>
    exact ⟨.error error, calls, enough, fun allowance isEnough =>
      (ends allowance isEnough).bind_error _⟩
  | ok found =>
    exact ⟨.ok (change found), calls ++ [], enough, fun allowance isEnough =>
      (ends allowance isEnough).bind (Ends.pure (change found))⟩

/-- An attempt that makes at least some calls and does not come to an end. -/
structure Stalls (answers : (op : Op) → Reply op) (attempt : Attempt Op Reply α) (least : Nat) :
    Prop where
  value : attempt.value? answers = none
  many : least ≤ (attempt.calls answers).length

theorem Stalls.bind {β : Type} {attempt : Attempt Op Reply α} {least : Nat}
    (stalls : Stalls answers attempt least) (next : α → Attempt Op Reply β) :
    Stalls answers (attempt >>= next) least := by
  constructor
  · rw [Attempt.value?_bind, stalls.value]
  · rw [Attempt.calls_bind_stalled stalls.value]
    exact stalls.many

/-- An attempt whose first part takes a call and whose second part does not come to an end. -/
theorem Stalls.after {β : Type} {attempt : Attempt Op Reply α} {next : α → Attempt Op Reply β}
    {value : α} {made : List Op} {least : Nat} (first : Ends answers attempt (.ok value) made)
    (called : 0 < made.length) (rest : Stalls answers (next value) least) :
    Stalls answers (attempt >>= next) (least + 1) := by
  constructor
  · rw [Attempt.value?_bind_ok first.value, rest.value]
  · rw [Attempt.calls_bind_ok first.value, first.made, List.length_append]
    have := rest.many
    omega

/-- A walk that uses up every allowance, with a call for each page of it. -/
def NeverEnds (answers : (op : Op) → Reply op) (walk : (allowance : Nat) → Attempt Op Reply α) :
    Prop :=
  ∀ allowance, Stalls answers (walk allowance) allowance

/-- A walk that ends if there is no circle, and does not if there is one. -/
structure EndsUnless (circle : Prop) (answers : (op : Op) → Reply op)
    (walk : (allowance : Nat) → Attempt Op Reply α) : Prop where
  terminating : ¬ circle → Terminating answers walk
  neverEnds : circle → NeverEnds answers walk

variable {failure? : Op → Option SyncError} {source : PageSource Op Reply α}
  {call : Option String → Op} {table : PageTable α}

namespace Paginator

theorem terminating_collect (one : OneCall answers failure? source call table)
    {cursor : Option String} {pages : List (Page α)} {failure : Option SyncError}
    (stretch : PageStretch table cursor pages failure) :
    Terminating answers fun allowance => collect source allowance ⟨cursor, false⟩ :=
  ⟨_, _, pages.length + 1, fun _ enough => (performs_collect one stretch enough).ends⟩

/-- A walk in a circle asks for as many pages as it is allowed, and does not come to an end. -/
theorem stalls_collect (one : OneCall answers failure? source call table)
    {cursor : Option String} (circles : Circles table cursor) (allowance : Nat) :
    Stalls answers (collect source allowance ⟨cursor, false⟩) allowance := by
  induction allowance generalizing cursor with
  | zero => exact ⟨rfl, Nat.zero_le _⟩
  | succ allowance inductionHypothesis =>
    obtain ⟨page, next, answered, continues, later⟩ := circles.goesOn
    have succeeds : ∀ made ∈ [call cursor], failure? made = none := by
      rw [List.forall_mem_singleton, one.failure, answered]
      rfl
    obtain ⟨value, made⟩ := (performs_next?_ok one answered).of_succeed succeeds
    have rest := inductionHypothesis later
    rw [← after_some continues cursor] at rest
    exact .after ⟨value, made⟩ Nat.zero_lt_one (rest.bind _)

end Paginator

/-- A collection whose first page is known. -/
theorem terminating_drain (one : OneCall answers failure? source call table) {first : Page α}
    {rest : List (Page α)} (after : StretchAfter table first rest) :
    Terminating answers fun allowance => drain source allowance first :=
  ⟨_, _, rest.length + 1, fun _ enough => (performs_drain one after enough).ends⟩

theorem neverEnds_drain (one : OneCall answers failure? source call table) {first : Page α}
    {next : String} (continues : first.nextCursor? = some next)
    (circles : Circles table (some next)) :
    NeverEnds answers fun allowance => drain source allowance first := by
  intro allowance
  simp only [drain, continues]
  exact (Paginator.stalls_collect one circles allowance).bind _

end Walks

/-! ### Numbered pages -/

namespace Client

open Http

variable {client : Client} {address : Address} {decode? : Json → Option α}
  {answers : (action : Http.Action) → action.Reply}

/-- The same for a request that may not be sent at all. -/
def settledSend (client : Client) (answers : (action : Http.Action) → action.Reply)
    (request : Request) : Outcome Response :=
  if request.isSendable then settled client.retry (answers (.send request)) else .error .network

/-- A numbered page. A page that names itself is the last one. -/
def numberedPage (page : String) (response : Response) (items : List α) : Page α :=
  match nextPage? response with
  | none => .last items
  | some next => if next = page then .last items else .withNext items next

/-- The next page of a numbered one is the one that its answer names. -/
theorem nextPage?_eq_of_numberedPage {page next : String} {response : Response} {items : List α}
    (continues : (numberedPage page response items).nextCursor? = some next) :
    nextPage? response = some next := by
  unfold numberedPage at continues
  cases named : nextPage? response with
  | none =>
    rw [named] at continues
    cases continues
  | some other =>
    rw [named] at continues
    simp only at continues
    split at continues
    · cases continues
    · exact continues

/-- Fetches a numbered page. -/
def fetchNumbered (client : Client) (address : Address) (decode? : Json → Option α)
    (page : String) : Exchange (Page α) := do
  let response ← client.ask ((address.withField "per_page" pageSize).withField "page" page)
  let items ← bodyValue (Json.asList? decode?) response
  pure (numberedPage page response items)

/-- The pages of a list by their numbers; the first one may be asked for without a number. -/
def listTable (client : Client) (address : Address) (decode? : Json → Option α)
    (answers : (action : Http.Action) → action.Reply) : PageTable α := fun cursor => do
  let page := cursor.getD "1"
  let response ← client.settledSend answers (client.request .fetch
    ((address.withField "per_page" pageSize).withField "page" page) none)
  match (response.body.bind Json.ofBytes?).bind (Json.asList? decode?) with
  | some items => pure (numberedPage page response items)
  | none => throw .network

/-- The walk over a list goes on after a page where it names another one. -/
theorem listFrom_succ (client : Client) (address : Address) (decode? : Json → Option α)
    (allowance : Nat) (page : String) :
    client.listFrom address decode? (allowance + 1) page = (do
      let found ← client.fetchNumbered address decode? page
      match found.nextCursor? with
      | none => pure found.items
      | some next => do
        let others ← client.listFrom address decode? allowance next
        pure (found.items ++ others)) := by
  rw [listFrom, fetchNumbered]
  simp only [bind_assoc, pure_bind]
  refine congrArg _ (funext fun response => congrArg _ (funext fun items => ?_))
  unfold numberedPage
  cases nextPage? response with
  | none => rfl
  | some next =>
    simp only
    split <;> rfl

/-- Sending a request is one call. -/
theorem bind_send_ends {β : Type} {request : Request}
    {next : Except Breakdown Response → Exchange β} {outcome : Outcome β}
    (after : ∃ later, Ends answers (next (answers (.send request))) outcome later) :
    ∃ calls, 0 < calls.length ∧ Ends answers (Exchange.send request >>= next) outcome calls := by
  obtain ⟨later, ends⟩ := after
  have sent : Ends answers (Exchange.send request) (.ok (answers (.send request)))
      [.send request] := ⟨rfl, rfl⟩
  refine ⟨_, ?_, sent.bind ends⟩
  exact Nat.succ_pos later.length

/-- A request that is always answered alike comes to an end. -/
theorem sendAgain_ends (answers : (action : Http.Action) → action.Reply) (policy : RetryPolicy)
    (request : Request) (left : Nat) :
    ∃ calls, 0 < calls.length ∧ Ends answers (sendAgain policy request left)
      (settled policy (answers (.send request))) calls := by
  have pause (millis : Nat) : Ends answers (Exchange.pause millis) (.ok ()) [.pause millis] :=
    ⟨rfl, rfl⟩
  have ended : Ends answers (Attempt.ofOutcome (settled policy (answers (.send request)))) _ [] :=
    ⟨rfl, rfl⟩
  induction left with
  | zero =>
    rw [sendAgain_zero]
    exact bind_send_ends ⟨[], ended⟩
  | succ left inductionHypothesis =>
    obtain ⟨calls, _, again⟩ := inductionHypothesis
    rw [sendAgain_succ]
    refine bind_send_ends ?_
    split
    · exact ⟨_, (pause _).bind again⟩
    · exact ⟨[], ended⟩

/-- An answer of success took a call. -/
theorem send_ends (answers : (action : Http.Action) → action.Reply) (client : Client)
    (request : Request) :
    ∃ calls, (∀ response, client.settledSend answers request = .ok response → 0 < calls.length) ∧
      Ends answers (client.send request) (client.settledSend answers request) calls := by
  unfold send settledSend
  split
  · obtain ⟨calls, taken, ends⟩ :=
      sendAgain_ends answers client.retry request client.retry.maxRetries
    exact ⟨calls, fun _ _ => taken, ends⟩
  · exact ⟨[], (fun _ same => nomatch same), Ends.throw _⟩

theorem bodyValue_ends (answers : (action : Http.Action) → action.Reply) {β : Type}
    (decode? : Json → Option β) (response : Response) :
    Ends answers (bodyValue decode? response)
      (match (response.body.bind Json.ofBytes?).bind decode? with
      | some value => .ok value
      | none => .error .network) [] := by
  unfold bodyValue bodyBytes
  cases response.body with
  | none => exact (Ends.throw _).bind_error _
  | some bytes =>
    refine (Ends.pure bytes).bind ?_
    rw [Option.bind_some]
    cases (Json.ofBytes? bytes).bind decode? with
    | none => exact Ends.throw _
    | some value => exact Ends.pure value

/-- Fetching a numbered page comes to what the table says; a page that is had took a call. -/
theorem fetchNumbered_ends (answers : (action : Http.Action) → action.Reply) (client : Client)
    (address : Address) (decode? : Json → Option α) (page : String) :
    ∃ calls, (∀ found, client.listTable address decode? answers (some page) = .ok found →
        0 < calls.length) ∧
      Ends answers (client.fetchNumbered address decode? page)
        (client.listTable address decode? answers (some page)) calls := by
  obtain ⟨calls, taken, sent⟩ := send_ends answers client (client.request .fetch
    ((address.withField "per_page" pageSize).withField "page" page) none)
  unfold fetchNumbered listTable ask
  simp only [Option.getD_some]
  generalize client.settledSend answers _ = settled at taken sent ⊢
  cases settled with
  | error error => exact ⟨calls, (fun _ same => nomatch same), sent.bind_error _⟩
  | ok response =>
    refine ⟨calls ++ [], fun _ _ => ?_, sent.bind ?_⟩
    · rw [List.append_nil]
      exact taken response rfl
    · have body := bodyValue_ends answers (Json.asList? decode?) response
      show Ends answers _ (match (response.body.bind Json.ofBytes?).bind (Json.asList? decode?) with
        | some items => .ok (numberedPage page response items)
        | none => .error .network) []
      generalize (response.body.bind Json.ofBytes?).bind (Json.asList? decode?) = items at body ⊢
      cases items with
      | none => exact body.bind_error _
      | some items => exact body.bind (Ends.pure _)

/-- A list ends where its pages do. -/
theorem terminating_listFrom {page : String} {pages : List (Page α)} {failure : Option SyncError}
    (stretch : PageStretch (client.listTable address decode? answers) (some page) pages failure) :
    Terminating answers fun allowance => client.listFrom address decode? allowance page := by
  generalize same : some page = cursor at stretch
  induction stretch generalizing page with
  | @failed _ error found =>
    subst same
    obtain ⟨calls, _, fetched⟩ := fetchNumbered_ends answers client address decode? page
    rw [found] at fetched
    refine .of_succ (.error error) calls 0 fun allowance _ => ?_
    rw [listFrom_succ]
    exact fetched.bind_error _
  | @last _ last found ends =>
    subst same
    obtain ⟨calls, _, fetched⟩ := fetchNumbered_ends answers client address decode? page
    rw [found] at fetched
    refine .of_succ (.ok last.items) (calls ++ []) 0 fun allowance _ => ?_
    rw [listFrom_succ]
    refine fetched.bind ?_
    rw [ends]
    exact Ends.pure last.items
  | @more _ first next _ _ found continues _ inductionHypothesis =>
    subst same
    obtain ⟨calls, _, fetched⟩ := fetchNumbered_ends answers client address decode? page
    rw [found] at fetched
    obtain ⟨outcome, later, enough, ends⟩ := (inductionHypothesis rfl).map (first.items ++ ·)
    refine .of_succ outcome (calls ++ later) enough fun allowance isEnough => ?_
    rw [listFrom_succ]
    refine fetched.bind ?_
    rw [continues]
    exact ends allowance isEnough

/-- A list whose pages run into a circle asks for as many of them as it is allowed. -/
theorem stalls_listFrom {page : String}
    (circles : Circles (client.listTable address decode? answers) (some page)) (allowance : Nat) :
    Stalls answers (client.listFrom address decode? allowance page) allowance := by
  induction allowance generalizing page with
  | zero => exact ⟨rfl, Nat.zero_le _⟩
  | succ allowance inductionHypothesis =>
    obtain ⟨found, next, answered, continues, later⟩ := circles.goesOn
    obtain ⟨calls, taken, fetched⟩ := fetchNumbered_ends answers client address decode? page
    rw [answered] at fetched
    rw [listFrom_succ]
    refine .after fetched (taken found answered) ?_
    rw [continues]
    exact (inductionHypothesis later).bind _

end Client

/-! ### When walks end -/

/-- Pages that are fetched by their cursors are had by one call each. -/
theorem oneCall_anyPages (table : PageTable α) :
    OneCall table (fun cursor => (table cursor).failure?) anyPages id table :=
  ⟨fun _ => rfl, fun _ => rfl, fun _ => rfl⟩

/-- Which walks end, on a server that has one answer for each page and names finitely many of them.
The walk from a cursor on, the rest of a collection whose first page is known and a list of numbered
pages end after finitely many calls unless their pages run into a circle, and never end if they do.
-/
theorem walks_end_unless_circles {table : PageTable α}
    (finite : {next | ∃ cursor, NamesNext table cursor next}.Finite) :
    (∀ start, EndsUnless (Circles table start) table
      fun allowance => Paginator.collect anyPages allowance (.resume start)) ∧
    (∀ first : Page α,
      EndsUnless (∃ next, first.nextCursor? = some next ∧ Circles table (some next)) table
        fun allowance => drain anyPages allowance first) ∧
    ∀ client address decode? answers, Client.listTable client address decode? answers = table →
      EndsUnless (Circles table (some "1")) answers
        fun allowance => client.list address decode? allowance := by
  refine ⟨fun start => ⟨fun straight => ?_, fun circles => ?_⟩,
    fun first => ⟨fun straight => ?_, ?_⟩, ?_⟩
  · obtain ⟨pages, failure, stretch⟩ := exists_stretch finite straight
    exact Paginator.terminating_collect (oneCall_anyPages table) stretch
  · exact Paginator.stalls_collect (oneCall_anyPages table) circles
  · cases continues : first.nextCursor? with
    | none => exact terminating_drain (oneCall_anyPages table) (.none continues)
    | some next =>
      have straightRest : ¬ Circles table (some next) :=
        fun circles => straight ⟨next, continues, circles⟩
      obtain ⟨pages, failure, stretch⟩ := exists_stretch finite straightRest
      exact terminating_drain (oneCall_anyPages table) (.some continues stretch)
  · rintro ⟨next, continues, circles⟩
    exact neverEnds_drain (oneCall_anyPages table) continues circles
  · rintro client address decode? answers rfl
    refine ⟨fun straight => ?_, Client.stalls_listFrom⟩
    obtain ⟨pages, failure, stretch⟩ := exists_stretch finite straight
    exact Client.terminating_listFrom stretch

/-! ### Two pages -/

namespace PageCircles

/-- A first page, and a second one that announces more and may name any page as the next. -/
def secondNames (name : Option String) : PageTable Nat
  | none => .ok (.withNext [1] "a")
  | some _ => .ok ⟨[2], ⟨name, true⟩⟩

theorem finite_secondNames (name : Option String) :
    {next | ∃ cursor, NamesNext (secondNames name) cursor next}.Finite := by
  refine ((Set.finite_singleton name).insert (some "a")).subset ?_
  rintro _ ⟨cursor, page, next, answered, continues, rfl⟩
  cases cursor with
  | none =>
    cases answered
    cases continues
    exact .inl rfl
  | some =>
    cases answered
    exact .inr continues.symm

/-- A client that asks once. -/
def client : Client :=
  ⟨default, default, none, ⟨0, 0, 0⟩⟩

/-- Where a list is. -/
def address : Address :=
  ⟨"http", "", "", none, none, .levels [], none, none⟩

/-- The walk over the list. -/
def list (allowance : Nat) : Http.Exchange (List Nat) :=
  client.list address (fun _ => some 0) allowance

/-- An empty page that names the second page or the first one. -/
def emptyPage (namesSecond : Bool) : Http.Response :=
  ⟨200, [("x-next-page", [if namesSecond then 50 else 49])], some [91, 93]⟩

/-- A server with an empty list, each page of which names the second page or the first one. -/
def emptyList (namesSecond : Option String → Bool) : (action : Http.Action) → action.Reply
  | .send request => .ok (emptyPage (namesSecond request.address.query))
  | .pause _ => ()

def emptyTable (namesSecond : Option String → Bool) : PageTable Nat :=
  client.listTable address (fun _ => some 0) (emptyList namesSecond)

theorem finite_emptyTable (namesSecond : Option String → Bool) :
    {next | ∃ cursor, NamesNext (emptyTable namesSecond) cursor next}.Finite := by
  refine ((Set.finite_singleton (some "2")).insert (some "1")).subset ?_
  rintro _ ⟨cursor, page, next, answered, continues, rfl⟩
  obtain ⟨isSecond, rfl⟩ : ∃ isSecond,
      page = Client.numberedPage (cursor.getD "1") (emptyPage isSecond) [] := by
    refine ⟨namesSecond ((address.withField "per_page" Client.pageSize).withField "page"
      (cursor.getD "1")).query, Except.ok.inj (answered.symm.trans ?_)⟩
    rfl
  have named := Client.nextPage?_eq_of_numberedPage continues
  cases isSecond with
  | true =>
    have second : Client.nextPage? (emptyPage true) = some "2" := by rfl
    exact .inr (named.symm.trans second)
  | false =>
    have first : Client.nextPage? (emptyPage false) = some "1" := by rfl
    exact .inl (named.symm.trans first)

/-- Whether a page is asked for that is the first one. -/
def isFirst (query : Option String) : Bool :=
  query = some "per_page=100&page=1"

end PageCircles

open PageCircles Paginator

/-- Walks that end: the second of two pages announces more without naming a page, and the first page
of a list names itself. -/
theorem two_walks_end :
    ({next | ∃ cursor, NamesNext (secondNames none) cursor next}.Finite ∧
      Terminating (secondNames none) fun allowance => collect anyPages allowance .start) ∧
    {next | ∃ cursor, NamesNext (emptyTable fun _ => false) cursor next}.Finite ∧
      Terminating (emptyList fun _ => false) list := by
  have finite := finite_secondNames none
  have stretch : PageStretch (secondNames none) none _ none := .more rfl rfl (.last rfl rfl)
  have finiteList := finite_emptyTable fun _ => false
  have firstPage : emptyTable (fun _ => false) (some "1") = .ok (.last []) := by rfl
  have listStretch : PageStretch (emptyTable fun _ => false) (some "1") _ none :=
    .last firstPage rfl
  refine ⟨⟨finite, ?_⟩, finiteList, ?_⟩
  · exact ((walks_end_unless_circles finite).1 none).terminating stretch.not_circles
  · exact ((walks_end_unless_circles finiteList).2.2 client address _ _ rfl).terminating
      listStretch.not_circles

/-- Walks that never end, on servers with two pages: the second page names itself as the next one,
and of two numbered pages each names the other. -/
theorem walks_without_end :
    {next | ∃ cursor, NamesNext (secondNames (some "a")) cursor next}.Finite ∧
      (NeverEnds (secondNames (some "a")) fun allowance => collect anyPages allowance .start) ∧
      (NeverEnds (secondNames (some "a")) fun allowance =>
        drain anyPages allowance (.withNext [1] "a")) ∧
    {next | ∃ cursor, NamesNext (emptyTable isFirst) cursor next}.Finite ∧
      NeverEnds (emptyList isFirst) list := by
  have named : NamesNext (secondNames (some "a")) (some "a") (some "a") := ⟨_, _, rfl, rfl, rfl⟩
  have second : Circles (secondNames (some "a")) (some "a") := ⟨_, .refl, .single named⟩
  have first : Circles (secondNames (some "a")) none :=
    ⟨_, .single ⟨_, _, rfl, rfl, rfl⟩, .single named⟩
  have one : emptyTable isFirst (some "1") = .ok (.withNext [] "2") := by rfl
  have two : emptyTable isFirst (some "2") = .ok (.withNext [] "1") := by rfl
  have numbered : Circles (emptyTable isFirst) (some "1") :=
    ⟨_, .refl, .head ⟨_, _, one, rfl, rfl⟩ (.single ⟨_, _, two, rfl, rfl⟩)⟩
  exact ⟨finite_secondNames _, stalls_collect (oneCall_anyPages _) first,
    neverEnds_drain (oneCall_anyPages _) rfl second, finite_emptyTable _,
    Client.stalls_listFrom numbered⟩

end CiTelemetry
