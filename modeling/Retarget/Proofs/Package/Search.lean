import Mathlib.Data.List.Basic
import Retarget.Package.Search

/-
  This file shows how a search calls its feeds, whatever
  they reply and whenever the search is cancelled.  The feeds
  are asked in order, a feed in trouble is asked again, and
  the first answer ends the search.

  Key definitions include:
    * `Search.Call`
    * `Search.Makes`
    * `Search.Fails`
    * `Search.Due`
    * `Search.Protocol`
    * `Search.Queried`
    * `Search.Searched`

  Key statements include:
    * `Search.ask_queried`
    * `Search.askFrom_searched`
    * `Search.versions_protocol`
-/

namespace Retarget

/- A reply after which the feed may be asked again. -/
def FeedReply.IsTransient (reply : FeedReply) : Prop :=
  ∃ e, reply.answer = .error e ∧ e.isTransient = true

namespace Search

------------------------------------------------------------
-- Calls
------------------------------------------------------------

/- A call of a feed, which is given by its place. -/
structure Call where
  feed : Nat
  reply : FeedReply

/- What one feed replied, in order. -/
def repliesOf (calls : List Call) (i : Nat) : List FeedReply :=
  (calls.filter fun c => c.feed == i).map Call.reply

/-
  A search makes some calls, one after the other.  Before
  each call it may wait but is not cancelled, and the feed
  knows what it was asked for before.
-/
inductive Makes (feeds : List Feed) (package : String) :
    State → List Call → State → Prop where
  | finish {s : State} :
    Makes feeds package s [] s
  | wait {s last : State} {calls : List Call} (delay : Nat) :
    Makes feeds package (s.wait delay) calls last →
    Makes feeds package s calls last
  | call {s last : State} {calls : List Call} {i : Nat} {feed : Feed} :
    s.cancelled = false →
    feeds[i]? = some feed →
    Makes feeds package
      { s with
        asked := s.asked.set i (package :: s.askedOf i)
        cancelled := (feed.reply (s.askedOf i) package).cancels }
      calls last →
    Makes feeds package s
      (⟨i, feed.reply (s.askedOf i) package⟩ :: calls) last

/-
  The question to a feed ends in an error that is no wish to
  stop; if it makes sense to ask again, all attempts are made.
-/
def Fails (attempts : Nat) (replies : List FeedReply) : Prop :=
  ∃ reply e,
    replies.getLast? = some reply ∧
      reply.answer = .error e ∧
        e ≠ .cancelled ∧
          (e.isTransient = true → replies.length = attempts)

/-
  Another call would have to follow: either the last feed is
  to be asked again, or there is a feed that was not called
  and all feeds before it have failed.
-/
def Due (feeds : List Feed) (attempts : Nat) (calls : List Call) : Prop :=
  (∃ c, calls.getLast? = some c ∧ c.reply.IsTransient ∧
    (repliesOf calls c.feed).length < attempts) ∨
  ∃ i < feeds.length, repliesOf calls i = [] ∧
    ∀ j < i, Fails attempts (repliesOf calls j)

/- How the calls of a search and its result belong together. -/
structure Protocol
    (feeds : List Feed)
    (attempts : Nat)
    (calls : List Call)
    (result : Except PackageError (Option Found)) : Prop where
  /- A feed is called when all feeds before it have failed. -/
  ordered :
    ∀ before c after, calls = before ++ c :: after →
      ∀ j < c.feed, Fails attempts (repliesOf before j)
  /- A feed is called again right after a transient error. -/
  retried :
    ∀ before c after, calls = before ++ c :: after →
      repliesOf before c.feed ≠ [] →
        ∃ q, before.getLast? = some q ∧ q.feed = c.feed ∧
          q.reply.IsTransient
  bounded : ∀ i, (repliesOf calls i).length ≤ attempts
  /- An answer of the last call is the result. -/
  found :
    ∀ name vs, result = .ok (some ⟨name, vs⟩) ↔
      ∃ c feed, calls.getLast? = some c ∧
        c.reply.answer = .ok vs ∧
          feeds[c.feed]? = some feed ∧ feed.name = name
  exhausted :
    result = .ok none ↔
      ∀ i < feeds.length, Fails attempts (repliesOf calls i)
  /- What was not done any more was given up. -/
  due : Due feeds attempts calls → result = .error .cancelled

section

variable {feeds : List Feed}
variable {package : String}
variable {s last : State}
variable {calls : List Call}

theorem Makes.append
    {middle : State}
    {more : List Call}
    (h : Makes feeds package s calls middle)
    (hMore : Makes feeds package middle more last) :
    Makes feeds package s (calls ++ more) last := by
  induction h with
  | finish => exact hMore
  | wait delay _ ih => exact .wait delay (ih hMore)
  | call hOpen hFeed _ ih => exact .call hOpen hFeed (ih hMore)

theorem Makes.eq_nil_of_cancelled
    (h : Makes feeds package s calls last)
    (hCancelled : s.cancelled = true) :
    calls = [] := by
  induction h with
  | finish => rfl
  | wait _ _ ih => exact ih hCancelled
  | call hOpen _ _ _ =>
      rw [hCancelled] at hOpen
      cases hOpen

/- No call follows one that the search is cancelled in. -/
theorem Makes.eq_nil_of_cancels
    {before after : List Call}
    {c : Call}
    (h : Makes feeds package s calls last)
    (hCalls : calls = before ++ c :: after)
    (hCancels : c.reply.cancels = true) :
    after = [] := by
  induction h generalizing before with
  | finish => simp at hCalls
  | wait _ _ ih => exact ih hCalls
  | call _ _ hRest ih =>
      cases before with
      | nil =>
          cases hCalls
          exact hRest.eq_nil_of_cancelled hCancels
      | cons d r => exact ih (List.cons.inj hCalls).2

------------------------------------------------------------
-- The replies of one feed
------------------------------------------------------------

variable {replies : List FeedReply}
variable {i j : Nat}

theorem repliesOf_append
    (calls more : List Call)
    (i : Nat) :
    repliesOf (calls ++ more) i = repliesOf calls i ++ repliesOf more i := by
  simp [repliesOf]

theorem repliesOf_map
    (replies : List FeedReply)
    (i : Nat) :
    repliesOf (replies.map (Call.mk i)) i = replies := by
  simp [repliesOf, List.filter_map, Function.comp_def]

theorem repliesOf_eq_nil
    (h : ∀ c ∈ calls, c.feed ≠ i) :
    repliesOf calls i = [] := by
  rw [repliesOf, List.filter_eq_nil_iff.mpr, List.map_nil]
  simpa using h

theorem repliesOf_map_of_ne
    (h : j ≠ i)
    (replies : List FeedReply) :
    repliesOf (replies.map (Call.mk j)) i = [] := by
  refine repliesOf_eq_nil fun c hc => ?_
  rcases List.mem_map.mp hc with ⟨reply, _, rfl⟩
  exact h

------------------------------------------------------------
-- One question
------------------------------------------------------------

/-
  The replies to a question that may be asked some number of
  times, and how it ends: in a last reply, or because the
  search is cancelled before another one.
-/
inductive Queried :
    Nat →
    List FeedReply →
    Except FeedError (List PackageVersion) →
    Prop where
  | stop {n : Nat} :
    Queried (n + 1) [] (.error .cancelled)
  | last {n : Nat} {reply : FeedReply} :
    (reply.IsTransient → n = 0) →
    Queried (n + 1) [reply] reply.answer
  | again
      {n : Nat} {reply : FeedReply} {replies : List FeedReply}
      {answer : Except FeedError (List PackageVersion)} :
    reply.IsTransient →
    Queried (n + 1) replies answer →
    Queried (n + 2) (reply :: replies) answer

theorem call_of_cancelled
    (hCancelled : s.cancelled = true) :
    call feeds i package s = (.error .cancelled, s) := by
  rw [call, if_pos hCancelled]

theorem call_of_feed
    {feed : Feed}
    (hOpen : s.cancelled = false)
    (hFeed : feeds[i]? = some feed) :
    call feeds i package s =
      ((feed.reply (s.askedOf i) package).answer,
        { s with
          asked := s.asked.set i (package :: s.askedOf i)
          cancelled := (feed.reply (s.askedOf i) package).cancels }) := by
  simp [call, hOpen, hFeed]

theorem ask_cons_of_transient
    {after : State}
    {e : FeedError}
    {delay : Nat}
    {rest : List Nat}
    (hCall : call feeds i package s = (.error e, after))
    (hTransient : e.isTransient = true) :
    ask feeds i package (delay :: rest) s =
      ask feeds i package rest (after.wait delay) := by
  rw [ask]
  simp only [hCall, hTransient, if_true]

theorem ask_cons_of_not_transient
    {after : State}
    {answer : Except FeedError (List PackageVersion)}
    {delay : Nat}
    {rest : List Nat}
    (hCall : call feeds i package s = (answer, after))
    (hFinal : ∀ e, answer = .error e → e.isTransient = false) :
    ask feeds i package (delay :: rest) s = (answer, after) := by
  rw [ask]
  cases answer with
  | ok versions => simp only [hCall]
  | error e => simp [hCall, hFinal e rfl]

/- A feed is asked as long as its replies call for it. -/
theorem ask_queried
    {feed : Feed}
    (package : String)
    (hFeed : feeds[i]? = some feed)
    (delays : List Nat)
    (s : State) :
    ∃ replies,
      Makes feeds package s (replies.map (Call.mk i))
          (ask feeds i package delays s).2 ∧
        Queried (delays.length + 1) replies
          (ask feeds i package delays s).1 := by
  induction delays generalizing s with
  | nil =>
      rw [ask]
      by_cases hCancelled : s.cancelled = true
      · rw [call_of_cancelled hCancelled]
        exact ⟨[], .finish, .stop⟩
      · rw [Bool.not_eq_true] at hCancelled
        rw [call_of_feed hCancelled hFeed]
        exact ⟨[_], .call hCancelled hFeed .finish, .last fun _ => rfl⟩
  | cons delay rest ih =>
      by_cases hCancelled : s.cancelled = true
      · rw [ask_cons_of_not_transient (call_of_cancelled hCancelled)]
        · exact ⟨[], .finish, .stop⟩
        · rintro e hError
          cases hError
          rfl
      · rw [Bool.not_eq_true] at hCancelled
        have hCall : call feeds i package s = _ := call_of_feed hCancelled hFeed
        by_cases hAgain : (feed.reply (s.askedOf i) package).IsTransient
        · rcases hAgain with ⟨e, hError, hTransient⟩
          rw [hError] at hCall
          rw [ask_cons_of_transient hCall hTransient]
          rcases ih _ with ⟨replies, hMakes, hQueried⟩
          exact ⟨_ :: replies, .call hCancelled hFeed (.wait delay hMakes),
            .again ⟨e, hError, hTransient⟩ hQueried⟩
        · rw [ask_cons_of_not_transient hCall]
          · exact ⟨[_], .call hCancelled hFeed .finish,
              .last fun hTransient => absurd hTransient hAgain⟩
          · intro e hError
            by_contra hTransient
            exact hAgain ⟨e, hError, by simpa using hTransient⟩

theorem Queried.length_le
    {n : Nat}
    {answer : Except FeedError (List PackageVersion)}
    (h : Queried n replies answer) :
    replies.length ≤ n := by
  induction h with
  | stop => exact Nat.zero_le _
  | last _ => exact Nat.succ_le_succ (Nat.zero_le _)
  | again _ _ ih => exact Nat.succ_le_succ ih

theorem Queried.eq_ok_iff
    {n : Nat}
    {answer : Except FeedError (List PackageVersion)}
    {versions : List PackageVersion}
    (h : Queried n replies answer) :
    answer = .ok versions ↔
      ∃ reply, replies.getLast? = some reply ∧
        reply.answer = .ok versions := by
  induction h with
  | stop => simp
  | last _ => simp
  | @again n reply replies answer hTransient _ ih =>
      rcases hTransient with ⟨e, hError, _⟩
      rw [ih, List.getLast?_cons]
      cases replies.getLast? <;> simp [hError]

/- A question that is put again fails as it does then. -/
theorem fails_cons_iff
    {n : Nat}
    {reply : FeedReply}
    (h : reply.IsTransient) :
    Fails (n + 2) (reply :: replies) ↔ Fails (n + 1) replies := by
  cases hReplies : replies.getLast? with
  | none =>
      obtain rfl := List.getLast?_eq_none_iff.mp hReplies
      rcases h with ⟨e, hError, hTransient⟩
      simp [Fails, hError, hTransient]
  | some last => simp [Fails, List.getLast?_cons, hReplies]

theorem Queried.fails_iff
    {n : Nat}
    {answer : Except FeedError (List PackageVersion)}
    (h : Queried n replies answer) :
    Fails n replies ↔ ∃ e, answer = .error e ∧ e ≠ .cancelled := by
  induction h with
  | stop => simp [Fails]
  | @last n reply hLast =>
      constructor
      · rintro ⟨r, e, hEq, hError, hOther, _⟩
        cases hEq
        exact ⟨e, hError, hOther⟩
      · rintro ⟨e, hError, hOther⟩
        refine ⟨reply, e, rfl, hError, hOther, fun hTransient => ?_⟩
        rw [hLast ⟨e, hError, hTransient⟩]
        rfl
  | again hTransient _ ih => rw [fails_cons_iff hTransient, ih]

/- Each reply but the last one is transient. -/
theorem Queried.isTransient_of_append
    {n : Nat}
    {answer : Except FeedError (List PackageVersion)}
    {front back : List FeedReply}
    {reply : FeedReply}
    (h : Queried n replies answer)
    (hReplies : replies = front ++ reply :: back)
    (hFront : front ≠ []) :
    ∃ q, front.getLast? = some q ∧ q.IsTransient := by
  induction h generalizing front with
  | stop => simp at hReplies
  | last _ =>
      cases front with
      | nil => exact absurd rfl hFront
      | cons q r => simp at hReplies
  | @again n q replies answer hTransient _ ih =>
      cases front with
      | nil => exact absurd rfl hFront
      | cons q' r =>
          rcases List.cons.inj hReplies with ⟨rfl, hRest⟩
          cases r with
          | nil => exact ⟨q, rfl, hTransient⟩
          | cons p r =>
              rw [List.getLast?_cons_cons]
              exact ih hRest (List.cons_ne_nil p r)

theorem Queried.retried
    {n i : Nat}
    {answer : Except FeedError (List PackageVersion)}
    {front back : List FeedReply}
    {c : Call}
    (h : Queried n (front ++ c.reply :: back) answer)
    (hFeed : c.feed = i)
    (hAgain : repliesOf (front.map (Call.mk i)) c.feed ≠ []) :
    ∃ q, (front.map (Call.mk i)).getLast? = some q ∧ q.feed = c.feed ∧
      q.reply.IsTransient := by
  rw [hFeed, repliesOf_map] at hAgain
  rcases h.isTransient_of_append rfl hAgain with ⟨q, hLast, hTransient⟩
  refine ⟨⟨i, q⟩, ?_, hFeed.symm, hTransient⟩
  rw [List.getLast?_map, hLast]
  rfl

/- A question that should be asked again was cancelled. -/
theorem Queried.eq_cancelled
    {n : Nat}
    {answer : Except FeedError (List PackageVersion)}
    (h : Queried n replies answer)
    (hMore :
      ∀ reply, replies.getLast? = some reply →
        reply.IsTransient ∧ replies.length < n) :
    answer = .error .cancelled := by
  induction h with
  | stop => rfl
  | @last n reply hLast =>
      rcases hMore reply rfl with ⟨hTransient, hLess⟩
      rw [hLast hTransient] at hLess
      exact absurd hLess (Nat.lt_irrefl _)
  | @again n reply replies answer hTransient _ ih =>
      refine ih fun last hLast => ?_
      rw [List.getLast?_cons, hLast] at hMore
      rcases hMore last rfl with ⟨hAgain, hLess⟩
      exact ⟨hAgain, Nat.lt_of_succ_lt_succ hLess⟩

theorem Queried.eq_cancelled_of_again
    {n : Nat}
    {answer : Except FeedError (List PackageVersion)}
    {c : Call}
    (h : Queried n replies answer)
    (hLast : (replies.map (Call.mk i)).getLast? = some c)
    (hTransient : c.reply.IsTransient)
    (hLess : (repliesOf (replies.map (Call.mk i)) c.feed).length < n) :
    answer = .error .cancelled := by
  rw [List.getLast?_map] at hLast
  rcases Option.map_eq_some_iff.mp hLast with ⟨reply, hReplies, rfl⟩
  rw [repliesOf_map] at hLess
  refine h.eq_cancelled fun other hOther => ?_
  rw [hReplies] at hOther
  cases hOther
  exact ⟨hTransient, hLess⟩

------------------------------------------------------------
-- All questions
------------------------------------------------------------

/- How the end of a question to a feed ends the search. -/
inductive Ends (feeds : List Feed) (i : Nat) :
    Except FeedError (List PackageVersion) →
    Except PackageError (Option Found) →
    Prop where
  | answer {feed : Feed} {versions : List PackageVersion} :
    feeds[i]? = some feed →
    Ends feeds i (.ok versions) (.ok (some ⟨feed.name, versions⟩))
  | stop :
    Ends feeds i (.error .cancelled) (.error .cancelled)

/-
  The calls of a search that goes to some feeds, and its
  result, which is nothing after all questions have failed.
-/
inductive Searched (feeds : List Feed) (attempts : Nat) :
    List Nat →
    List Call →
    Except PackageError (Option Found) →
    Prop where
  | nothing :
    Searched feeds attempts [] [] (.ok none)
  | last
      {i : Nat} {rest : List Nat} {replies : List FeedReply}
      {answer : Except FeedError (List PackageVersion)}
      {result : Except PackageError (Option Found)} :
    Queried attempts replies answer →
    Ends feeds i answer result →
    Searched feeds attempts (i :: rest) (replies.map (Call.mk i)) result
  | next
      {i : Nat} {rest : List Nat} {replies : List FeedReply}
      {e : FeedError} {calls : List Call}
      {result : Except PackageError (Option Found)} :
    Queried attempts replies (.error e) →
    e ≠ .cancelled →
    Searched feeds attempts rest calls result →
    Searched feeds attempts (i :: rest)
      (replies.map (Call.mk i) ++ calls) result

theorem Ends.eq_found_iff
    {answer : Except FeedError (List PackageVersion)}
    {result : Except PackageError (Option Found)}
    {name : String}
    {versions : List PackageVersion}
    (h : Ends feeds i answer result) :
    result = .ok (some ⟨name, versions⟩) ↔
      answer = .ok versions ∧
        ∃ feed, feeds[i]? = some feed ∧ feed.name = name := by
  cases h with
  | answer hFeed => simp [hFeed, and_comm]
  | stop => simp

theorem Ends.eq_cancelled
    {result : Except PackageError (Option Found)}
    (h : Ends feeds i (.error .cancelled) result) :
    result = .error .cancelled := by
  cases h
  rfl

theorem length_pausesFrom
    (n pause : Nat) :
    (RetryPolicy.pausesFrom n pause).length = n := by
  induction n generalizing pause with
  | zero => rfl
  | succ n ih => rw [RetryPolicy.pausesFrom, List.length_cons, ih]

theorem length_delays
    (policy : RetryPolicy) :
    policy.delays.length + 1 = max 1 policy.maxAttempts := by
  rw [RetryPolicy.delays, List.length_map, length_pausesFrom]
  omega

theorem askFrom_searched
    (policy : RetryPolicy)
    (package : String)
    (sources : List Nat)
    (hSources : ∀ i ∈ sources, i < feeds.length)
    (s : State) :
    ∃ calls,
      Makes feeds package s calls
          (askFrom feeds policy package sources s).2 ∧
        Searched feeds (max 1 policy.maxAttempts) sources calls
          (askFrom feeds policy package sources s).1 := by
  induction sources generalizing s with
  | nil => exact ⟨[], .finish, .nothing⟩
  | cons i rest ih =>
      rw [askFrom]
      by_cases hCancelled : s.cancelled = true
      · rw [if_pos hCancelled, ← length_delays]
        exact ⟨[], .finish, .last .stop .stop⟩
      · rw [if_neg hCancelled]
        have hFeed := List.getElem?_eq_getElem (hSources i List.mem_cons_self)
        rcases ask_queried package hFeed policy.delays s with
          ⟨replies, hMakes, hQueried⟩
        rw [length_delays] at hQueried
        rcases hAsk : ask feeds i package policy.delays s with ⟨answer, after⟩
        rw [hAsk] at hMakes hQueried
        cases answer with
        | ok versions =>
            rw [hFeed]
            exact ⟨_, hMakes, .last hQueried (.answer hFeed)⟩
        | error e =>
            by_cases hStop : e = .cancelled
            · subst hStop
              exact ⟨_, hMakes, .last hQueried .stop⟩
            · rcases ih (fun j hj =>
                hSources j (List.mem_cons_of_mem i hj)) after with
                ⟨calls, hMore, hSearched⟩
              have hNext := Searched.next (i := i) hQueried hStop hSearched
              cases e with
              | cancelled => exact absurd rfl hStop
              | _ => exact ⟨_, hMakes.append hMore, hNext⟩

------------------------------------------------------------
-- Calls of several feeds
------------------------------------------------------------

theorem feed_of_mem_map
    {c : Call}
    (h : c ∈ replies.map (Call.mk i)) :
    c.feed = i := by
  rcases List.mem_map.mp h with ⟨reply, _, rfl⟩
  rfl

theorem repliesOf_first
    (h : ∀ c ∈ calls, c.feed ≠ i)
    (replies : List FeedReply) :
    repliesOf (replies.map (Call.mk i) ++ calls) i = replies := by
  rw [repliesOf_append, repliesOf_map, repliesOf_eq_nil h, List.append_nil]

theorem repliesOf_later
    (h : j ≠ i)
    (replies : List FeedReply)
    (calls : List Call) :
    repliesOf (replies.map (Call.mk i) ++ calls) j = repliesOf calls j := by
  rw [repliesOf_append, repliesOf_eq_nil, List.nil_append]
  exact fun c hc hEq => h (hEq.symm.trans (feed_of_mem_map hc))

/- A call belongs to the first question or comes after it. -/
theorem split_calls
    {before after : List Call}
    {c : Call}
    (h : replies.map (Call.mk i) ++ calls = before ++ c :: after) :
    (∃ front back,
        replies = front ++ c.reply :: back ∧
          before = front.map (Call.mk i) ∧ c.feed = i) ∨
      ∃ middle,
        before = replies.map (Call.mk i) ++ middle ∧
          calls = middle ++ c :: after := by
  rcases List.append_eq_append_iff.mp h with
    ⟨middle, hBefore, hCalls⟩ | ⟨middle, hFirst, hAfter⟩
  · exact Or.inr ⟨middle, hBefore, hCalls⟩
  · cases middle with
    | nil =>
        refine Or.inr ⟨[], ?_, by simpa using hAfter.symm⟩
        rw [hFirst, List.append_nil, List.append_nil]
    | cons d r =>
        obtain ⟨rfl, _⟩ := List.cons.inj hAfter
        rcases List.map_eq_append_iff.mp hFirst with
          ⟨front, more, rfl, hFront, hMore⟩
        rcases List.map_eq_cons_iff.mp hMore with ⟨reply, back, rfl, rfl, _⟩
        exact Or.inl ⟨front, back, rfl, hFront.symm, rfl⟩

------------------------------------------------------------
-- The protocol
------------------------------------------------------------

namespace Searched

variable {attempts : Nat}
variable {sources : List Nat}
variable {result : Except PackageError (Option Found)}
variable {before after : List Call}
variable {c : Call}

theorem mem
    (h : Searched feeds attempts sources calls result) :
    ∀ c ∈ calls, c.feed ∈ sources := by
  induction h with
  | nothing => simp
  | last _ _ => exact fun c hc => feed_of_mem_map hc ▸ List.mem_cons_self
  | next _ _ _ ih =>
      intro c hc
      rcases List.mem_append.mp hc with hFirst | hLater
      · exact feed_of_mem_map hFirst ▸ List.mem_cons_self
      · exact List.mem_cons_of_mem _ (ih c hLater)

theorem ordered
    (h : Searched feeds attempts sources calls result)
    (hSorted : sources.Pairwise (· < ·))
    (hCalls : calls = before ++ c :: after) :
    ∀ j ∈ sources, j < c.feed → Fails attempts (repliesOf before j) := by
  -- No feed lies before the first one.
  have hFirst : ∀ {i : Nat} {rest : List Nat},
      (i :: rest).Pairwise (· < ·) → ∀ j ∈ i :: rest, ¬ j < i := by
    intro i rest hSorted j hj hLess
    rcases List.mem_cons.mp hj with rfl | hRest
    · exact Nat.lt_irrefl _ hLess
    · exact Nat.lt_asymm hLess ((List.pairwise_cons.mp hSorted).1 j hRest)
  induction h generalizing before with
  | nothing => simp at hCalls
  | @last i rest replies _ _ _ _ =>
      have hMem : c ∈ replies.map (Call.mk i) := by simp [hCalls]
      have hOwn := feed_of_mem_map hMem
      rw [hOwn]
      exact fun j hj hLess => absurd hLess (hFirst hSorted j hj)
  | @next i rest replies e calls result hQueried hOther hRest ih =>
      intro j hj hLess
      rcases split_calls hCalls with ⟨_, _, _, _, hOwn⟩ | ⟨middle, rfl, hLater⟩
      · rw [hOwn] at hLess
        exact absurd hLess (hFirst hSorted j hj)
      · rcases List.pairwise_cons.mp hSorted with ⟨hBelow, hSortedRest⟩
        rcases List.mem_cons.mp hj with rfl | hjRest
        · have hMiddle : ∀ d ∈ middle, d.feed ≠ j := by
            intro d hd hEq
            have hMem := hRest.mem d (hLater ▸ List.mem_append_left _ hd)
            exact Nat.lt_irrefl _ (hEq ▸ hBelow d.feed hMem)
          rw [repliesOf_first hMiddle]
          exact hQueried.fails_iff.mpr ⟨e, rfl, hOther⟩
        · rw [repliesOf_later (Nat.ne_of_gt (hBelow j hjRest))]
          exact ih hSortedRest hLater j hjRest hLess

/- Later calls go to later feeds. -/
theorem feed_ne_of_mem
    {i : Nat}
    {rest : List Nat}
    (h : Searched feeds attempts rest calls result)
    (hSorted : (i :: rest).Pairwise (· < ·)) :
    ∀ c ∈ calls, c.feed ≠ i :=
  fun c hc => Nat.ne_of_gt <|
    (List.pairwise_cons.mp hSorted).1 c.feed (h.mem c hc)

theorem retried
    (h : Searched feeds attempts sources calls result)
    (hSorted : sources.Pairwise (· < ·))
    (hCalls : calls = before ++ c :: after)
    (hAgain : repliesOf before c.feed ≠ []) :
    ∃ q, before.getLast? = some q ∧ q.feed = c.feed ∧
      q.reply.IsTransient := by
  induction h generalizing before with
  | nothing => simp at hCalls
  | @last i rest replies answer result hQueried _ =>
      rw [← List.append_nil (replies.map (Call.mk i))] at hCalls
      rcases split_calls hCalls with
        ⟨front, back, rfl, rfl, hOwn⟩ | ⟨middle, _, hLater⟩
      · exact hQueried.retried hOwn hAgain
      · simp at hLater
  | @next i rest replies e calls result hQueried _ hRest ih =>
      rcases split_calls hCalls with
        ⟨front, back, rfl, rfl, hOwn⟩ | ⟨middle, rfl, hLater⟩
      · exact hQueried.retried hOwn hAgain
      · have hApart := hRest.feed_ne_of_mem hSorted c
          (hLater ▸ List.mem_append_right _ List.mem_cons_self)
        rw [repliesOf_later hApart] at hAgain
        rcases ih (List.pairwise_cons.mp hSorted).2 hLater hAgain with
          ⟨q, hLast, hFeed, hTransient⟩
        refine ⟨q, ?_, hFeed, hTransient⟩
        rw [List.getLast?_append, hLast]
        rfl

theorem bounded
    (h : Searched feeds attempts sources calls result)
    (hSorted : sources.Pairwise (· < ·))
    (j : Nat) :
    (repliesOf calls j).length ≤ attempts := by
  induction h with
  | nothing => exact Nat.zero_le _
  | @last i rest replies answer result hQueried _ =>
      by_cases hj : j = i
      · rw [hj, repliesOf_map]
        exact hQueried.length_le
      · rw [repliesOf_map_of_ne (Ne.symm hj)]
        exact Nat.zero_le _
  | @next i rest replies e calls result hQueried _ hRest ih =>
      by_cases hj : j = i
      · rw [hj, repliesOf_first (hRest.feed_ne_of_mem hSorted)]
        exact hQueried.length_le
      · rw [repliesOf_later hj]
        exact ih (List.pairwise_cons.mp hSorted).2

theorem found_iff
    {name : String}
    {versions : List PackageVersion}
    (h : Searched feeds attempts sources calls result) :
    result = .ok (some ⟨name, versions⟩) ↔
      ∃ c feed, calls.getLast? = some c ∧
        c.reply.answer = .ok versions ∧
          feeds[c.feed]? = some feed ∧ feed.name = name := by
  induction h with
  | nothing => simp
  | @last i rest replies answer result hQueried hEnds =>
      rw [hEnds.eq_found_iff, hQueried.eq_ok_iff]
      constructor
      · rintro ⟨⟨reply, hLast, hReply⟩, feed, hFeed, hName⟩
        refine ⟨⟨i, reply⟩, feed, ?_, hReply, hFeed, hName⟩
        rw [List.getLast?_map, hLast]
        rfl
      · rintro ⟨c, feed, hLast, hReply, hFeed, hName⟩
        rw [List.getLast?_map] at hLast
        rcases Option.map_eq_some_iff.mp hLast with ⟨reply, hReplies, rfl⟩
        exact ⟨⟨reply, hReplies, hReply⟩, feed, hFeed, hName⟩
  | @next i rest replies e calls result hQueried _ hRest ih =>
      rw [ih, List.getLast?_append]
      cases hLast : calls.getLast? with
      | some c => rfl
      | none =>
          -- A question that has failed ends in no answer.
          refine iff_of_false (by simp) ?_
          rintro ⟨c, _, hEnd, hReply, _⟩
          rw [Option.none_or, List.getLast?_map] at hEnd
          rcases Option.map_eq_some_iff.mp hEnd with ⟨reply, hReplies, rfl⟩
          cases hQueried.eq_ok_iff.mpr ⟨reply, hReplies, hReply⟩

theorem exhausted_iff
    (h : Searched feeds attempts sources calls result)
    (hSorted : sources.Pairwise (· < ·)) :
    result = .ok none ↔
      ∀ j ∈ sources, Fails attempts (repliesOf calls j) := by
  induction h with
  | nothing => simp
  | @last i rest replies answer result hQueried hEnds =>
      have hFails : ¬ Fails attempts replies := by
        rw [hQueried.fails_iff]
        rintro ⟨e, rfl, hOther⟩
        cases hEnds
        exact hOther rfl
      refine iff_of_false (fun hNone => ?_) fun hAll => hFails ?_
      · cases hEnds <;> cases hNone
      · have hHere := hAll i List.mem_cons_self
        rwa [repliesOf_map] at hHere
  | @next i rest replies e calls result hQueried hOther hRest ih =>
      have hApart := hRest.feed_ne_of_mem hSorted
      have hFails := hQueried.fails_iff.mpr ⟨e, rfl, hOther⟩
      rw [ih (List.pairwise_cons.mp hSorted).2, List.forall_mem_cons,
        repliesOf_first hApart, and_iff_right hFails]
      refine forall₂_congr fun j hj => ?_
      rw [repliesOf_later
        (Nat.ne_of_gt ((List.pairwise_cons.mp hSorted).1 j hj))]

/- Only a wish to stop ends a search that has to ask again. -/
theorem eq_cancelled_of_again
    (h : Searched feeds attempts sources calls result)
    (hSorted : sources.Pairwise (· < ·))
    (hLast : calls.getLast? = some c)
    (hTransient : c.reply.IsTransient)
    (hLess : (repliesOf calls c.feed).length < attempts) :
    result = .error .cancelled := by
  induction h with
  | nothing => cases hLast
  | last hQueried hEnds =>
      obtain rfl := hQueried.eq_cancelled_of_again hLast hTransient hLess
      exact hEnds.eq_cancelled
  | @next i rest replies e calls result hQueried hOther hRest ih =>
      cases hCalls : calls.getLast? with
      | some d =>
          rw [List.getLast?_append, hCalls] at hLast
          cases hLast
          have hApart := hRest.feed_ne_of_mem hSorted c
            (List.mem_of_getLast? hCalls)
          rw [repliesOf_later hApart] at hLess
          exact ih (List.pairwise_cons.mp hSorted).2 hCalls hLess
      | none =>
          rw [List.getLast?_eq_none_iff.mp hCalls, List.append_nil]
            at hLast hLess
          cases hQueried.eq_cancelled_of_again hLast hTransient hLess
          exact absurd rfl hOther

/- Only a wish to stop ends a search before all feeds were asked. -/
theorem eq_cancelled_of_next
    (h : Searched feeds attempts sources calls result)
    (hSorted : sources.Pairwise (· < ·))
    (hMem : j ∈ sources)
    (hNone : repliesOf calls j = [])
    (hFailed :
      ∀ k ∈ sources, k < j → Fails attempts (repliesOf calls k)) :
    result = .error .cancelled := by
  induction h with
  | nothing => cases hMem
  | @last i rest replies answer result hQueried hEnds =>
      have hAnswer : answer = .error .cancelled := by
        rcases List.mem_cons.mp hMem with rfl | hLater
        · rw [repliesOf_map] at hNone
          exact hQueried.eq_cancelled (by simp [hNone])
        · have hLess := (List.pairwise_cons.mp hSorted).1 j hLater
          have hHere := hFailed i List.mem_cons_self hLess
          rw [repliesOf_map, hQueried.fails_iff] at hHere
          rcases hHere with ⟨e, rfl, hOther⟩
          cases hEnds
          exact absurd rfl hOther
      rw [hAnswer] at hEnds
      exact hEnds.eq_cancelled
  | @next i rest replies e calls result hQueried hOther hRest ih =>
      rcases List.pairwise_cons.mp hSorted with ⟨hBelow, hSortedRest⟩
      rcases List.mem_cons.mp hMem with rfl | hLater
      · rw [repliesOf_first (hRest.feed_ne_of_mem hSorted)] at hNone
        cases hQueried.eq_cancelled (by simp [hNone])
        exact absurd rfl hOther
      · rw [repliesOf_later (Nat.ne_of_gt (hBelow j hLater))] at hNone
        refine ih hSortedRest hLater hNone fun k hk hLess => ?_
        have hFail := hFailed k (List.mem_cons_of_mem i hk) hLess
        rwa [repliesOf_later (Nat.ne_of_gt (hBelow k hk))] at hFail

theorem protocol
    (h : Searched feeds attempts (List.range feeds.length) calls result) :
    Protocol feeds attempts calls result where
  ordered := fun before c after hCalls j hj => by
    have hMem : c.feed ∈ List.range feeds.length :=
      h.mem c (hCalls ▸ List.mem_append_right _ List.mem_cons_self)
    exact h.ordered List.pairwise_lt_range hCalls j
      (List.mem_range.mpr (Nat.lt_trans hj (List.mem_range.mp hMem))) hj
  retried := fun before c after hCalls hAgain =>
    h.retried List.pairwise_lt_range hCalls hAgain
  bounded := h.bounded List.pairwise_lt_range
  found := fun name versions => h.found_iff
  exhausted := by
    rw [h.exhausted_iff List.pairwise_lt_range]
    simp only [List.mem_range]
  due := by
    rintro (⟨c, hLast, hTransient, hLess⟩ | ⟨i, hi, hNone, hFailed⟩)
    · exact h.eq_cancelled_of_again List.pairwise_lt_range hLast hTransient
        hLess
    · exact h.eq_cancelled_of_next List.pairwise_lt_range
        (List.mem_range.mpr hi) hNone fun k _ hk => hFailed k hk

end Searched

/-
  Whatever the feeds reply and whenever the search is
  cancelled, it makes its calls by the protocol, and none
  after it was cancelled.
-/
theorem versions_protocol
    (feeds : List Feed)
    (policy : RetryPolicy)
    (package : String)
    (hPackage : Text.isBlankText package = false)
    (s : State) :
    ∃ calls,
      Makes feeds package s calls (versions feeds policy package s).2 ∧
      Protocol feeds (max 1 policy.maxAttempts) calls
        (versions feeds policy package s).1 ∧
      (s.cancelled = true → calls = []) ∧
      ∀ before c after, calls = before ++ c :: after →
        c.reply.cancels = true → after = [] := by
  have hName : requireName "package_id" package = .ok () := by
    simp [requireName, requireNonEmpty, hPackage, Except.mapError]
  rw [versions, hName]
  rcases askFrom_searched policy package
    (List.range feeds.length) (fun i hi => List.mem_range.mp hi) s with
    ⟨calls, hMakes, hSearched⟩
  exact ⟨calls, hMakes, hSearched.protocol, hMakes.eq_nil_of_cancelled,
    fun before c after hCalls hCancels =>
      hMakes.eq_nil_of_cancels hCalls hCancels⟩

end

/- A feed in trouble, and one that knows a package. -/
namespace Trouble

def feeds : List Feed :=
  [.ofReplies "one" [⟨.error (.transient "one" "busy"), false⟩],
    .ofReplies "two" [⟨.ok [], true⟩]]

theorem versions_protocol_feeds :
    Text.isBlankText "json" = false ∧
    (versions feeds ⟨2, 1⟩ "json" (.start feeds)).1 =
      .ok (some ⟨"two", []⟩) ∧
    (versions feeds ⟨2, 1⟩ "json" (.start feeds)).2 =
      ⟨[["json", "json"], ["json"]], 1, true⟩ ∧
    ∃ calls,
      Makes feeds "json" (.start feeds) calls
        (versions feeds ⟨2, 1⟩ "json" (.start feeds)).2 ∧
      Protocol feeds 2 calls
        (versions feeds ⟨2, 1⟩ "json" (.start feeds)).1 := by
  have hName : Text.isBlankText "json" = false := by decide
  rcases versions_protocol feeds ⟨2, 1⟩ "json" hName (.start feeds) with
    ⟨calls, hMakes, hProtocol, _⟩
  refine ⟨hName, ?_, ?_, calls, hMakes, hProtocol⟩
  · decide
  · decide

end Trouble

end Search

end Retarget
