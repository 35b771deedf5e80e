import Courier.Proofs.Lookup
/-!
Histories of stubs.  A stub and its clones are one: what is done through any of them is done to all.
So the past of a stub is one list of deeds, and the list says everything: which requests are on
record, how far each sequence has come, and what the next request is answered.  All lists of deeds
have the latest deed in front.
-/
namespace Courier

/-- What is done with a stub. -/
inductive Stub.Deed
  | addHandler (path : String) (handler : Stub.Handler)
  | addAnswer (path : String) (status : Nat) (value : Datum)
  | addAnswerFor (method : Method) (path : String) (status : Nat) (value : Datum)
  | addNetworkError (path detail : String)
  | addSequence (path : String) (answers : List WireResponse)
  | send (request : WireRequest)
  | reset

namespace Stub

def perform (stub : Stub) : Deed → Stub
  | .addHandler path handler => stub.addHandler path handler
  | .addAnswer path status value => stub.addAnswer path status value
  | .addAnswerFor method path status value => stub.addAnswerFor method path status value
  | .addNetworkError path detail => stub.addNetworkError path detail
  | .addSequence path answers => stub.addSequence path answers
  | .send request => (stub.answer request).2
  | .reset => stub.reset

def after : List Deed → Stub
  | [] => {}
  | deed :: past => (after past).perform deed

namespace Deed

def isReset : Deed → Bool
  | reset => true
  | _ => false

/-- The sequence for a path starts with the deed, or starts again. -/
def starts (path : String) : Deed → Bool
  | addSequence place _ => path = place
  | reset => true
  | _ => false

def sent? : Deed → Option WireRequest
  | send request => some request
  | _ => none

/-- The answers that a deed lines up for a path. -/
def linedUp? (path : String) : Deed → Option (List WireResponse)
  | addSequence place answers => if path = place then some answers else none
  | _ => none

/-- The handler that a deed registers for a path and any method. -/
def handler? (path : String) : Deed → Option Handler
  | addHandler place handler => if path = place then some handler else none
  | addAnswer place status value =>
      if path = place then some fun _ => .ok (.ofDatum status value) else none
  | addNetworkError place detail =>
      if path = place then some fun _ => .error (.connection detail) else none
  | _ => none

/-- The handler that a deed registers for a method and a path. -/
def methodHandler? (method : Method) (path : String) : Deed → Option Handler
  | addAnswerFor method' place status value =>
      if (method, path) = (method', place) then some fun _ => .ok (.ofDatum status value) else none
  | _ => none

end Deed

/-- The requests since the last reset, the first in front. -/
def sent (past : List Deed) : List WireRequest :=
  ((past.takeWhile fun deed => !deed.isReset).filterMap Deed.sent?).reverse

/-- How many requests came for a path since its sequence started. -/
def asked (past : List Deed) (path : String) : Nat :=
  ((past.takeWhile fun deed => !deed.starts path).filterMap Deed.sent?).countP fun request =>
    request.url.pathText = path

/-- The latest answers that were lined up for a path. -/
def linedUp (past : List Deed) (path : String) : List WireResponse :=
  (past.findSome? (Deed.linedUp? path)).getD []

/-- The latest handler for a method and a path, or else the latest for the path. -/
def standing (past : List Deed) (method : Method) (path : String) : Option Handler :=
  (past.findSome? (Deed.methodHandler? method path)).or (past.findSome? (Deed.handler? path))

variable {past : List Deed} {stub : Stub} {deed : Deed}

theorem sent_cons (deed : Deed) (past : List Deed) :
    sent (deed :: past) = if deed.isReset then [] else sent past ++ deed.sent?.toList := by
  rw [sent, List.takeWhile_cons]
  cases hreset : deed.isReset with
  | true => rfl
  | false =>
      cases hsent : deed.sent? with
      | none => simp [sent, hsent]
      | some request => simp [sent, hsent]

theorem asked_cons (deed : Deed) (past : List Deed) (path : String) :
    asked (deed :: past) path =
      if deed.starts path then 0
      else asked past path + deed.sent?.toList.countP fun request => request.url.pathText = path := by
  rw [asked, List.takeWhile_cons]
  cases hstarts : deed.starts path with
  | true => rfl
  | false =>
      cases hsent : deed.sent? with
      | none => simp [asked, hsent]
      | some request => simp [asked, hsent, List.countP_cons]

theorem findSome?_cons_eq_or {α β : Type} (f : α → Option β) (x : α) (xs : List α) :
    (x :: xs).findSome? f = (f x).or (xs.findSome? f) := by
  rw [List.findSome?_cons]
  cases f x <;> rfl

/-- What a request is answered that no sequence answers. -/
def fallback (handler : Option Handler) (request : WireRequest) :
    Except TransportFailure WireResponse :=
  match handler with
  | some handler => handler request
  | none =>
      .error (.other
        s!"mock: no handler registered for {request.method.token} {request.url.pathText}")

/-- A request takes the next answer of the sequence for its path, or else is left to the handlers. -/
theorem answer_cases (stub : Stub) (request : WireRequest) :
    (∃ sequence answer, stub.sequences.lookup request.url.pathText = some sequence ∧
      sequence.answers[sequence.given]? = some answer ∧
      stub.answer request =
        (.ok answer,
          { stub with
            requests := stub.requests ++ [request]
            sequences := assign request.url.pathText
              { sequence with given := sequence.given + 1 } stub.sequences })) ∨
    ((∀ sequence, stub.sequences.lookup request.url.pathText = some sequence →
        sequence.answers.length ≤ sequence.given) ∧
      stub.answer request =
        (fallback (stub.handlerFor request.method request.url.pathText) request,
          { stub with requests := stub.requests ++ [request] })) := by
  have hleft : nextOfSequence { stub with requests := stub.requests ++ [request] }
      request.url.pathText = none →
      stub.answer request =
        (fallback (stub.handlerFor request.method request.url.pathText) request,
          { stub with requests := stub.requests ++ [request] }) := by
    intro hnext
    have hhandler : handlerFor { stub with requests := stub.requests ++ [request] } request.method
        request.url.pathText = stub.handlerFor request.method request.url.pathText := rfl
    simp only [answer, hnext, hhandler]
    cases stub.handlerFor request.method request.url.pathText <;> rfl
  cases hlookup : stub.sequences.lookup request.url.pathText with
  | none =>
      refine .inr ⟨by simp, hleft ?_⟩
      simp only [nextOfSequence, hlookup]
  | some sequence =>
      cases hanswer : sequence.answers[sequence.given]? with
      | none =>
          refine .inr ⟨?_, hleft ?_⟩
          · rintro _ ⟨⟩
            exact List.getElem?_eq_none_iff.mp hanswer
          · simp only [nextOfSequence, hlookup, hanswer, Option.map_none]
      | some answer =>
          refine .inl ⟨sequence, answer, rfl, hanswer, ?_⟩
          simp only [Stub.answer, nextOfSequence, hlookup, hanswer, Option.map_some]

/-- A request is put on record, and no handler is touched. -/
theorem answer_frame (stub : Stub) (request : WireRequest) :
    (stub.answer request).2.requests = stub.requests ++ [request] ∧
      (stub.answer request).2.handlers = stub.handlers ∧
      (stub.answer request).2.methodHandlers = stub.methodHandlers := by
  rcases answer_cases stub request with ⟨_, _, _, _, heq⟩ | ⟨_, heq⟩
  · rw [heq]
    exact ⟨rfl, rfl, rfl⟩
  · rw [heq]
    exact ⟨rfl, rfl, rfl⟩

theorem lookup_addHandler (stub : Stub) (place path : String) (handler : Handler) :
    (stub.addHandler place handler).handlers.lookup path =
      (if path = place then some handler else none).or (stub.handlers.lookup path) := by
  rw [addHandler, lookup_assign]
  split <;> rfl

theorem handlers_perform (stub : Stub) (deed : Deed) (path : String) :
    (stub.perform deed).handlers.lookup path =
      (deed.handler? path).or (stub.handlers.lookup path) := by
  cases deed with
  | addHandler place handler => exact lookup_addHandler stub place path handler
  | addAnswer place status value => exact lookup_addHandler stub place path _
  | addNetworkError place detail => exact lookup_addHandler stub place path _
  | send request =>
      rw [perform, (answer_frame stub request).2.1]
      rfl
  | addAnswerFor => rfl
  | addSequence => rfl
  | reset => rfl

theorem methodHandlers_perform (stub : Stub) (deed : Deed) (method : Method) (path : String) :
    (stub.perform deed).methodHandlers.lookup (method, path) =
      (deed.methodHandler? method path).or (stub.methodHandlers.lookup (method, path)) := by
  cases deed with
  | addAnswerFor method' place status value =>
      change (assign _ _ _).lookup (method, path) = _
      rw [lookup_assign, Deed.methodHandler?]
      split <;> rfl
  | send request =>
      rw [perform, (answer_frame stub request).2.2]
      rfl
  | addHandler => rfl
  | addAnswer => rfl
  | addNetworkError => rfl
  | addSequence => rfl
  | reset => rfl

theorem requests_perform (stub : Stub) (deed : Deed) :
    (stub.perform deed).requests =
      if deed.isReset then [] else stub.requests ++ deed.sent?.toList := by
  cases deed with
  | send request => exact (answer_frame stub request).1
  | reset => rfl
  | addHandler => exact (List.append_nil _).symm
  | addAnswer => exact (List.append_nil _).symm
  | addAnswerFor => exact (List.append_nil _).symm
  | addNetworkError => exact (List.append_nil _).symm
  | addSequence => exact (List.append_nil _).symm

/-- The stub has kept of its past what it needs. -/
structure Remembers (past : List Deed) (stub : Stub) : Prop where
  requests_eq : stub.requests = sent past
  handlers_eq : ∀ path, stub.handlers.lookup path = past.findSome? (Deed.handler? path)
  methodHandlers_eq : ∀ method path, stub.methodHandlers.lookup (method, path) =
    past.findSome? (Deed.methodHandler? method path)
  sequences_eq : ∀ path, stub.sequences.lookup path =
    (past.findSome? (Deed.linedUp? path)).map fun answers =>
      ⟨answers, min (asked past path) answers.length⟩

/-- A sequence goes on with every request for its path, up to its end. -/
theorem Remembers.sequences_send (h : Remembers past stub) (request : WireRequest) (path : String) :
    (stub.answer request).2.sequences.lookup path =
      (past.findSome? (Deed.linedUp? path)).map fun answers =>
        ⟨answers, min (asked (.send request :: past) path) answers.length⟩ := by
  have hasked : asked (.send request :: past) path =
      asked past path + if request.url.pathText = path then 1 else 0 := by
    rw [asked_cons]
    simp [Deed.starts, Deed.sent?, List.countP_cons]
  have hsequences := h.sequences_eq path
  rw [hasked]
  rcases answer_cases stub request with ⟨sequence, answer, hlookup, hanswer, heq⟩ | ⟨hover, heq⟩
  · rw [heq, lookup_assign]
    by_cases hpath : request.url.pathText = path
    · rw [hpath, hsequences] at hlookup
      obtain ⟨answers, hanswers, rfl⟩ := Option.map_eq_some_iff.mp hlookup
      obtain ⟨hlt, _⟩ := List.getElem?_eq_some_iff.mp hanswer
      have hgiven : min (asked past path) answers.length + 1 =
          min (asked past path + 1) answers.length := by
        change min (asked past path) answers.length < answers.length at hlt
        omega
      rw [if_pos hpath.symm, if_pos hpath, hanswers, Option.map_some, hgiven]
    · rw [if_neg (Ne.symm hpath), if_neg hpath, hsequences, Nat.add_zero]
  · rw [heq, hsequences]
    by_cases hpath : request.url.pathText = path
    · apply Option.map_congr
      intro answers hanswers
      rw [hpath, hsequences] at hover
      have hle := hover _ (by rw [hanswers, Option.map_some])
      have hgiven : min (asked past path) answers.length =
          min (asked past path + 1) answers.length := by
        change answers.length ≤ min (asked past path) answers.length at hle
        omega
      rw [if_pos hpath, hgiven]
    · rw [if_neg hpath, Nat.add_zero]

theorem Remembers.sequences_perform (h : Remembers past stub) (deed : Deed) (path : String) :
    (stub.perform deed).sequences.lookup path =
      ((deed :: past).findSome? (Deed.linedUp? path)).map fun answers =>
        ⟨answers, min (asked (deed :: past) path) answers.length⟩ := by
  have hstill : deed.linedUp? path = none → deed.starts path = false → deed.sent? = none →
      (stub.perform deed).sequences = stub.sequences →
      (stub.perform deed).sequences.lookup path =
        ((deed :: past).findSome? (Deed.linedUp? path)).map fun answers =>
          ⟨answers, min (asked (deed :: past) path) answers.length⟩ := by
    intro hlined hstarts hsent heq
    rw [heq, h.sequences_eq, findSome?_cons_eq_or, asked_cons, hlined, hstarts, hsent]
    rfl
  cases deed with
  | addHandler => exact hstill rfl rfl rfl rfl
  | addAnswer => exact hstill rfl rfl rfl rfl
  | addAnswerFor => exact hstill rfl rfl rfl rfl
  | addNetworkError => exact hstill rfl rfl rfl rfl
  | addSequence place answers =>
      change (assign _ _ _).lookup path = _
      rw [lookup_assign, findSome?_cons_eq_or, asked_cons, h.sequences_eq]
      by_cases hpath : path = place
      · simp [hpath, Deed.linedUp?, Deed.starts]
      · simp [hpath, Deed.linedUp?, Deed.starts, Deed.sent?]
  | reset =>
      have hmap := lookup_map_snd (fun sequence : Sequence => (⟨sequence.answers, 0⟩ : Sequence)) path
        stub.sequences
      have hreset : (stub.perform .reset).sequences.lookup path =
          (stub.sequences.lookup path).map fun sequence => ⟨sequence.answers, 0⟩ := hmap
      rw [hreset, findSome?_cons_eq_or, asked_cons, h.sequences_eq]
      simp [Deed.linedUp?, Deed.starts, Function.comp_def]
  | send request => exact h.sequences_send request path

/-- Whatever is done with a stub, it remembers what it needs. -/
theorem Remembers.perform (h : Remembers past stub) (deed : Deed) :
    Remembers (deed :: past) (stub.perform deed) := by
  refine ⟨?_, ?_, ?_, h.sequences_perform deed⟩
  · rw [requests_perform, sent_cons, h.requests_eq]
  · intro path
    rw [handlers_perform, findSome?_cons_eq_or, h.handlers_eq]
  · intro method path
    rw [methodHandlers_perform, findSome?_cons_eq_or, h.methodHandlers_eq]

theorem remembers_after (past : List Deed) : Remembers past (after past) := by
  induction past with
  | nil => exact ⟨rfl, fun _ => rfl, fun _ _ => rfl, fun _ => rfl⟩
  | cons deed past ih => exact ih.perform deed

theorem Remembers.handlerFor_eq (h : Remembers past stub) (method : Method) (path : String) :
    stub.handlerFor method path = standing past method path := by
  rw [handlerFor, standing, h.methodHandlers_eq, h.handlers_eq]

theorem Remembers.sequence_eq (h : Remembers past stub) {path : String} {sequence : Sequence}
    (hlookup : stub.sequences.lookup path = some sequence) :
    sequence.answers = linedUp past path ∧
      sequence.given = min (asked past path) (linedUp past path).length := by
  rw [h.sequences_eq] at hlookup
  obtain ⟨answers, hanswers, rfl⟩ := Option.map_eq_some_iff.mp hlookup
  rw [linedUp, hanswers]
  exact ⟨rfl, rfl⟩

theorem Remembers.lookup_of_linedUp (h : Remembers past stub) {path : String}
    (hlined : linedUp past path ≠ []) :
    ∃ sequence, stub.sequences.lookup path = some sequence := by
  rw [h.sequences_eq]
  cases hanswers : past.findSome? (Deed.linedUp? path) with
  | none =>
      rw [linedUp, hanswers] at hlined
      exact absurd rfl hlined
  | some answers => exact ⟨_, rfl⟩

/-- While a sequence lasts, a request is answered by its place in it. -/
theorem Remembers.answer_of_lt (h : Remembers past stub) (request : WireRequest)
    (hlt : asked past request.url.pathText < (linedUp past request.url.pathText).length) :
    (stub.answer request).1 =
      .ok ((linedUp past request.url.pathText)[asked past request.url.pathText]) := by
  rcases answer_cases stub request with ⟨sequence, answer, hlookup, hanswer, heq⟩ | ⟨hover, _⟩
  · obtain ⟨hanswers, hgiven⟩ := h.sequence_eq hlookup
    rw [hanswers, hgiven, Nat.min_eq_left (Nat.le_of_lt hlt), List.getElem?_eq_getElem hlt,
      Option.some.injEq] at hanswer
    rw [heq, hanswer]
  · have hpos := Nat.lt_of_le_of_lt (Nat.zero_le _) hlt
    obtain ⟨sequence, hlookup⟩ := h.lookup_of_linedUp (List.ne_nil_of_length_pos hpos)
    obtain ⟨hanswers, hgiven⟩ := h.sequence_eq hlookup
    have hle := hover sequence hlookup
    rw [hanswers, hgiven] at hle
    omega

/-- After the end of a sequence the handlers answer. -/
theorem Remembers.answer_of_ge (h : Remembers past stub) (request : WireRequest)
    (hle : (linedUp past request.url.pathText).length ≤ asked past request.url.pathText) :
    (stub.answer request).1 =
      fallback (standing past request.method request.url.pathText) request := by
  rcases answer_cases stub request with ⟨sequence, answer, hlookup, hanswer, _⟩ | ⟨_, heq⟩
  · obtain ⟨hanswers, hgiven⟩ := h.sequence_eq hlookup
    obtain ⟨hlt, _⟩ := List.getElem?_eq_some_iff.mp hanswer
    rw [hanswers, hgiven] at hlt
    omega
  · rw [heq, h.handlerFor_eq]

end Stub

/-- What is done with stubs.  A handle goes by its number among all handles. -/
inductive Stubs.Deed
  | make
  | clone (original : Nat)
  /-- something is done with the stub of a handle -/
  | act (handle : Nat) (deed : Stub.Deed)

/-- Stubs and the handles on them.  A clone is one more handle on the same stub. -/
structure Stubs where
  made : List Stub := []
  /-- for each handle the stub that it is on -/
  handles : List Nat := []

namespace Stubs

def perform (stubs : Stubs) : Deed → Stubs
  | .make => ⟨stubs.made ++ [{}], stubs.handles ++ [stubs.made.length]⟩
  | .clone original =>
      match stubs.handles[original]? with
      | none => stubs
      | some n => { stubs with handles := stubs.handles ++ [n] }
  | .act handle deed =>
      match stubs.handles[handle]? with
      | none => stubs
      | some n => { stubs with made := stubs.made.modify n fun stub => stub.perform deed }

def after : List Deed → Stubs
  | [] => {}
  | deed :: past => (after past).perform deed

/-- All that was done with one stub, through whatever handle. -/
def done (n : Nat) : List Deed → List Stub.Deed
  | .act handle deed :: past =>
      if (after past).handles[handle]? = some n then deed :: done n past else done n past
  | _ :: past => done n past
  | [] => []

/-- Each stub is what was done with it; nothing was done with stubs that are not there. -/
structure Keeps (past : List Deed) (stubs : Stubs) : Prop where
  handle_lt : ∀ n ∈ stubs.handles, n < stubs.made.length
  made_eq : ∀ n < stubs.made.length, stubs.made[n]? = some (Stub.after (done n past))
  done_eq_nil : ∀ n, stubs.made.length ≤ n → done n past = []

variable {past : List Deed} {stubs : Stubs}

theorem Keeps.make (h : Keeps past stubs) : Keeps (.make :: past) (stubs.perform .make) := by
  have hlength : (stubs.perform .make).made.length = stubs.made.length + 1 := by
    simp [perform]
  refine ⟨?_, ?_, ?_⟩
  · intro n hn
    rw [hlength]
    rcases List.mem_append.mp hn with hn | hn
    · exact Nat.lt_succ_of_lt (h.handle_lt n hn)
    · rw [List.mem_singleton.mp hn]
      exact Nat.lt_succ_self _
  · intro n hn
    change (stubs.made ++ [Stub.after []])[n]? = some (Stub.after (done n past))
    by_cases hlt : n < stubs.made.length
    · rw [List.getElem?_append_left hlt]
      exact h.made_eq n hlt
    · have heq : n = stubs.made.length := by omega
      rw [heq, List.getElem?_concat_length, h.done_eq_nil _ (Nat.le_refl _)]
  · intro n hle
    exact h.done_eq_nil n (by omega)

theorem Keeps.clone (h : Keeps past stubs) (original : Nat) :
    Keeps (.clone original :: past) (stubs.perform (.clone original)) := by
  cases horiginal : stubs.handles[original]? with
  | none =>
      simp only [perform, horiginal]
      exact ⟨h.handle_lt, h.made_eq, h.done_eq_nil⟩
  | some n =>
      simp only [perform, horiginal]
      refine ⟨?_, h.made_eq, h.done_eq_nil⟩
      intro m hm
      rcases List.mem_append.mp hm with hm | hm
      · exact h.handle_lt m hm
      · rw [List.mem_singleton.mp hm]
        exact h.handle_lt n (List.mem_of_getElem? horiginal)

theorem Keeps.act (h : Keeps past (after past)) (handle : Nat) (deed : Stub.Deed) :
    Keeps (.act handle deed :: past) ((after past).perform (.act handle deed)) := by
  cases hhandle : (after past).handles[handle]? with
  | none =>
      have hdone : ∀ n, done n (.act handle deed :: past) = done n past := by
        intro n
        rw [done, hhandle, if_neg (by simp)]
      simp only [perform, hhandle]
      refine ⟨h.handle_lt, ?_, ?_⟩
      · intro n hn
        rw [hdone]
        exact h.made_eq n hn
      · intro n hn
        rw [hdone]
        exact h.done_eq_nil n hn
  | some n =>
      simp only [perform, hhandle]
      refine ⟨?_, ?_, ?_⟩
      · intro m hm
        rw [List.length_modify]
        exact h.handle_lt m hm
      · intro m hm
        rw [List.length_modify] at hm
        rw [List.getElem?_modify, h.made_eq m hm, done, hhandle]
        by_cases hm : n = m
        · simp [hm, Stub.after]
        · simp [hm]
      · intro m hm
        rw [List.length_modify] at hm
        have hn := h.handle_lt n (List.mem_of_getElem? hhandle)
        have hne : ¬ some n = some m := by
          rw [Option.some.injEq]
          omega
        rw [done, hhandle, if_neg hne]
        exact h.done_eq_nil m hm

theorem keeps_after (past : List Deed) : Keeps past (after past) := by
  induction past with
  | nil => exact ⟨by simp [after], by simp [after], fun _ _ => rfl⟩
  | cons deed past ih =>
      cases deed with
      | make => exact ih.make
      | clone original => exact ih.clone original
      | act handle deed => exact ih.act handle deed

/-- What a stub has on record and what it answers is settled by what was done with it through all its
clones.  The next request for a path takes the place in the sequence that follows from the number of
requests since the sequence started; when there is no such place, the latest handler for its method
and path answers, or else the latest for its path, or else it fails. -/
theorem answers_by_past (past : List Deed) (handle n : Nat)
    (hhandle : (after past).handles[handle]? = some n) :
    ∃ stub, (after past).made[n]? = some stub ∧
      stub.requests = Stub.sent (done n past) ∧
      (∀ path, stub.callCount path =
        (Stub.sent (done n past)).countP fun request => request.url.pathText = path) ∧
      ∀ request path i, request.url.pathText = path → i = Stub.asked (done n past) path →
        (∀ answer, (Stub.linedUp (done n past) path)[i]? = some answer →
          (stub.answer request).1 = .ok answer) ∧
        ((Stub.linedUp (done n past) path).length ≤ i →
          (∀ handler, Stub.standing (done n past) request.method path = some handler →
            (stub.answer request).1 = handler request) ∧
          (Stub.standing (done n past) request.method path = none →
            (stub.answer request).1 = .error (.other
              s!"mock: no handler registered for {request.method.token} {path}"))) := by
  have hkeeps := keeps_after past
  have hn := hkeeps.handle_lt n (List.mem_of_getElem? hhandle)
  have hstub := Stub.remembers_after (done n past)
  refine ⟨_, hkeeps.made_eq n hn, hstub.requests_eq, ?_, ?_⟩
  · intro path
    rw [Stub.callCount, hstub.requests_eq]
  · rintro request _ _ rfl rfl
    refine ⟨?_, ?_⟩
    · intro answer hanswer
      obtain ⟨hlt, heq⟩ := List.getElem?_eq_some_iff.mp hanswer
      rw [hstub.answer_of_lt request hlt, heq]
    · intro hle
      rw [hstub.answer_of_ge request hle]
      refine ⟨?_, ?_⟩
      · intro handler hstanding
        rw [hstanding, Stub.fallback]
      · intro hstanding
        rw [hstanding, Stub.fallback]

end Stubs

namespace StubHistoryWitness

open Stubs (Deed after done)

def request (method : Method) : WireRequest where
  method
  url :=
    { scheme := "https", authority := some { host := .domain "mock.local" }
      path := .segments ["flaky"] }

/-- A sequence of two answers, of which the first is taken through a clone; then a handler. -/
def past : List Deed :=
  [.act 0 (.addNetworkError "/flaky" "refused"), .act 1 (.send (request .post)),
    .act 0 (.addSequence "/flaky" [.ofStatus 503, .ofStatus 204]), .clone 0, .make]

/-- The second answer follows, and then the handler answers. -/
theorem second_answer_then_handler :
    (∃ stub, (after past).made[0]? = some stub ∧ stub.requests = [request .post] ∧
      (stub.answer (request .get)).1 = .ok (.ofStatus 204)) ∧
    ∃ stub, (after (.act 1 (.send (request .get)) :: past)).made[0]? = some stub ∧
      stub.callCount "/flaky" = 2 ∧
      (stub.answer (request .get)).1 = .error (.connection "refused") := by
  have hpath : (request .get).url.pathText = "/flaky" := by decide +kernel
  refine ⟨?_, ?_⟩
  · obtain ⟨stub, hstub, hrequests, _, hanswer⟩ :=
      Stubs.answers_by_past past 1 0 (by decide +kernel)
    refine ⟨stub, hstub, ?_, ?_⟩
    · rw [hrequests]
      decide +kernel
    · apply (hanswer (request .get) "/flaky" 1 hpath (by decide +kernel)).1
      decide +kernel
  · obtain ⟨stub, hstub, _, hcount, hanswer⟩ :=
      Stubs.answers_by_past (.act 1 (.send (request .get)) :: past) 1 0 (by decide +kernel)
    refine ⟨stub, hstub, ?_, ?_⟩
    · rw [hcount]
      decide +kernel
    · have hover := (hanswer (request .get) "/flaky" 2 hpath (by decide +kernel)).2
      exact (hover (by decide +kernel)).1 (fun _ => .error (.connection "refused")) rfl

end StubHistoryWitness
end Courier
