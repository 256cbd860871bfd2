import PgProto.Typestate.Server

/-!
# ServerGrammar — the server typestates and the generated `backend` grammar

What a server session consumes and sends is read as a word of the `backend` table, asynchronous
messages left out.  The typestates are more permissive than the table in two places:

* `send` refuses the messages that have an operation of their own, not those that have no place;
* after a simple-query COPY the connection is back in `ServerSimpleQuery`, where everything may
  follow, while the table admits only ReadyForQuery.

The `Dirty` annotations of the table are met except by Execute, whose offer keeps the index, and by
the two operations which take a request as stateless.
-/

namespace PgProto

open Lib

/-- Whether the table annotates a transition with `Dirty`. -/
def Backend.isDirty : Backend.RuntimeState → Backend.Event → Bool
  | .ready, .query => true
  | .ready, .parse => true
  | .ready, .bind => true
  | .ready, .execute => true
  | .ready, .functionCall => true
  | .building, .parse => true
  | .building, .bind => true
  | .building, .execute => true
  | _, _ => false

namespace ServerSession

open Backend (transitions)

/-! ## The word of a run -/

/-- The request that an operation takes. -/
def Op.request : Op → List FrontendVariant
  | .acceptStatelessQuery _ => [.query]
  | .acceptStatelessFunctionCall _ => [.functionCall]
  | _ => []

def letters (e : Entry) : Backend.Word :=
  match e.input, e.output with
  | .call _, .sent message _ =>
    if isAsynchronous message then [] else [.internal message.variant]
  | .call op, .taken => op.request.map .external
  | .offer message, .accepted _ => [.external message.variant]
  | _, _ => []

/-- Whether the simple query being served has been through a COPY, after one more step. -/
def copiedAfter (copied : Bool) (e : Entry) : Bool :=
  match e.before.phase, e.after.phase with
  | .simpleQuery, .simpleQuery => copied
  | .ready, _ => false
  | _, .simpleQuery => true
  | _, _ => false

def copied (h : List Entry) : Bool :=
  h.foldl copiedAfter false

/-- The states of the table that a phase stands for. -/
def Phase.states (copied : Bool) : Phase → List Backend.RuntimeState
  | .ready => [.ready]
  | .simpleQuery => if copied then [.simpleCopyReady] else [.simple]
  | .simpleError => [.simpleError, .simpleCopyReady]
  | .functionCall => [.functionResponse]
  | .functionCallDone => [.functionReady]
  | .functionCallError => [.functionReady]
  | .building => [.building]
  | .parse => [.parseResponse]
  | .bind => [.bindResponse]
  | .describe => [.describeResponse]
  | .execute => [.executeResponse]
  | .close => [.closeResponse]
  | .sync => [.syncResponse]
  | .extendedError => [.extendedError]
  | .copyIn .simple => [.simpleCopyIn]
  | .copyIn .extended => [.extendedCopyIn]
  | .copyInDone .simple => [.simpleCopyInDone]
  | .copyInDone .extended => [.extendedCopyInDone]
  | .copyInFailed .simple => [.simpleCopyInFailed]
  | .copyInFailed .extended => [.extendedCopyInFailed]
  | .copyOut .simple => [.simpleCopyOut]
  | .copyOut .extended => [.extendedCopyOut]
  | .copyOutDone .simple => [.simpleCopyOutDone]
  | .copyOutDone .extended => [.extendedCopyOutDone]
  | .copyBoth .simple .bothOpen => [.simpleCopyBoth]
  | .copyBoth .simple .bothClientDone => [.simpleCopyBothClientDone]
  | .copyBoth .simple .bothServerDone => [.simpleCopyBothServerDone]
  | .copyBoth .simple .bothDone => [.simpleCopyBothDone]
  | .copyBoth .extended .bothOpen => [.extendedCopyBoth]
  | .copyBoth .extended .bothClientDone => [.extendedCopyBothClientDone]
  | .copyBoth .extended .bothServerDone => [.extendedCopyBothServerDone]
  | .copyBoth .extended .bothDone => [.extendedCopyBothDone]
  | .copyBothFailed .simple => [.simpleCopyBothFailed]
  | .copyBothFailed .extended => [.extendedCopyBothFailed]
  | .terminated => [.terminated]

/-- The steps that stay in the table: `send` is used for the messages that continue a result, and
after a simple-query COPY only `ready` follows. -/
def inGrammar (copied : Bool) (conn : Conn) : Input → Bool
  | .call (.send message) =>
    isAsynchronous message ||
      match conn.phase with
      | .simpleQuery =>
        !copied && [BackendVariant.rowDescription, .dataRow, .commandComplete,
          .emptyQueryResponse].contains message.variant
      | _ => [BackendVariant.rowDescription, .dataRow, .emptyQueryResponse].contains message.variant
  | .call (.ready _) => true
  | .call _ => !(copied && decide (conn.phase = .simpleQuery))
  | .offer _ => true

/-- The steps that meet the `Dirty` annotations: requests are taken as stateless, and Execute is
offered, only on a connection which is dirty already. -/
def marked (conn : Conn) : Input → Bool
  | .call (.acceptStatelessQuery _) => decide (conn.cleanliness = .dirty)
  | .call (.acceptStatelessFunctionCall _) => decide (conn.cleanliness = .dirty)
  | .offer (.execute _) =>
    decide (conn.phase ∈ [Phase.ready, .building] → conn.cleanliness = .dirty)
  | _ => true

/-! ## One step -/

theorem simple_continues {v : BackendVariant}
    (h : [BackendVariant.rowDescription, .dataRow, .commandComplete, .emptyQueryResponse].contains v =
      true) : transitions.walk .simple [.internal v] = some .simple := by
  cases v <;> first | rfl | cases h

theorem execute_continues {v : BackendVariant}
    (h : [BackendVariant.rowDescription, .dataRow, .emptyQueryResponse].contains v = true) :
    transitions.walk .executeResponse [.internal v] = some .executeResponse := by
  cases v <;> first | rfl | cases h

theorem states_congr {phase : Phase} (h : phase ≠ .simpleQuery) (copied copied' : Bool) :
    phase.states copied = phase.states copied' := by
  unfold Phase.states
  split <;> first | rfl | exact absurd rfl h

variable {conn conn' : Conn} {message : BackendMessage} {state : Backend.RuntimeState} {flag : Bool}

theorem offer_walks {message : FrontendMessage} {branch : Branch}
    (h : conn.offerFrontend message = some (.accepted conn' branch))
    (hstate : state ∈ conn.phase.states flag) :
    ∃ state', transitions.walk state [.external message.variant] = some state' ∧
      state' ∈ conn'.phase.states
        (copiedAfter flag ⟨conn, .offer message, .accepted branch, conn'⟩) := by
  unfold Conn.offerFrontend at h
  split at h
  case h_7 => cases h
  -- The phases with a COPY stand for one state for each way to resume.
  case h_3 | h_4 | h_5 =>
    next resume c =>
      cases resume <;> cases List.mem_singleton.1 hstate <;> cases message <;> cases h <;>
        exact ⟨_, rfl, List.mem_singleton.2 rfl⟩
  all_goals
    cases List.mem_singleton.1 hstate
    cases message <;> cases h <;> exact ⟨_, rfl, List.mem_singleton.2 rfl⟩

/-- Readiness leads to `Ready` from every state in which a response may end. -/
theorem ready_walks {c : Cleanliness} {status : TransactionStatus}
    (h : ready c status = some (.ok (conn, some message)))
    (hstate : state ∈ [.functionReady, .simple, .simpleCopyReady, .simpleError, .syncResponse]) :
    isAsynchronous message = false ∧
      ∃ state', transitions.walk state [.internal message.variant] = some state' ∧
        state' ∈ conn.phase.states flag := by
  have hready : transitions.walk state [.internal .readyForQuery] = some .ready := by
    simp only [List.mem_cons, List.not_mem_nil, or_false] at hstate
    rcases hstate with rfl | rfl | rfl | rfl | rfl <;> rfl
  unfold ready at h
  split at h <;> cases h <;> exact ⟨rfl, .ready, hready, List.mem_singleton.2 rfl⟩

/-- What an operation other than `send` sends is a step of the table. -/
theorem answer_walks {op : Op} (frame : Frame)
    (h : conn.answer op = some (.ok (conn', some message))) (hop : ∀ m, op ≠ .send m)
    (hin : inGrammar flag conn (.call op) = true) (hstate : state ∈ conn.phase.states flag) :
    isAsynchronous message = false ∧
      ∃ state', transitions.walk state [.internal message.variant] = some state' ∧
        state' ∈ conn'.phase.states
          (copiedAfter flag ⟨conn, .call op, .sent message frame, conn'⟩) := by
  -- One arm for each operation of a type, grouped by what the arms have in common.
  unfold Conn.answer at h
  split at h
  -- Nothing is sent when a request is taken as stateless.
  case h_1 | h_2 | h_43 => cases h
  case h_7 | h_24 => exact absurd rfl (hop _)
  -- Readiness, after a function call, an error of a simple query, or a Sync.
  case h_5 | h_6 | h_13 | h_42 =>
    apply ready_walks h
    simp only [Phase.states, List.mem_cons, List.not_mem_nil, or_false] at hstate ⊢
    tauto
  case h_12 =>
    apply ready_walks h
    cases flag <;> cases List.mem_singleton.1 hstate <;> simp
  -- In a simple query nothing but readiness may follow a COPY.
  case h_8 =>
    cases flag <;> cases hin
    cases List.mem_singleton.1 hstate
    cases h
    exact ⟨rfl, _, rfl, List.mem_cons_self⟩
  case h_9 | h_10 | h_11 =>
    cases flag <;> cases hin
    cases List.mem_singleton.1 hstate
    cases h
    exact ⟨rfl, _, rfl, List.mem_singleton.2 rfl⟩
  -- A client's failure of a simple-query COPY leaves only readiness to be sent.
  case h_32 | h_41 =>
    next resume c _ =>
      cases resume <;> cases List.mem_singleton.1 hstate <;> cases h
      · exact ⟨rfl, _, rfl, List.mem_cons_of_mem _ (List.mem_singleton.2 rfl)⟩
      · exact ⟨rfl, _, rfl, List.mem_singleton.2 rfl⟩
  -- The other answers of a COPY, for both ways to resume.
  case h_34 | h_37 | h_39 =>
    next resume c =>
      cases resume <;> cases List.mem_singleton.1 hstate <;> cases h <;>
        exact ⟨rfl, _, rfl, List.mem_singleton.2 rfl⟩
  case h_31 | h_33 | h_35 | h_36 | h_38 | h_40 =>
    next resume c _ =>
      cases resume <;> cases List.mem_singleton.1 hstate <;> cases h <;>
        exact ⟨rfl, _, rfl, List.mem_singleton.2 rfl⟩
  all_goals
    cases List.mem_singleton.1 hstate
    cases h
    exact ⟨rfl, _, rfl, List.mem_singleton.2 rfl⟩

/-- `send` stays where it is and sends what it is given. -/
theorem answer_send {m : BackendMessage} {message : Option BackendMessage}
    (h : conn.answer (.send m) = some (.ok (conn', message))) :
    (conn.phase = .simpleQuery ∨ conn.phase = .execute) ∧ conn' = conn ∧ message = some m := by
  rcases conn with ⟨phase, c⟩
  cases phase with
  | simpleQuery =>
    have hsend := Option.some.inj h
    unfold ServerSimpleQuery.send at hsend
    split at hsend <;> cases hsend
    exact ⟨Or.inl rfl, rfl, rfl⟩
  | execute =>
    have hsend := Option.some.inj h
    unfold ServerExecute.send at hsend
    split at hsend <;> cases hsend
    exact ⟨Or.inr rfl, rfl, rfl⟩
  | copyBoth resume ends => cases ends <;> cases h
  | _ => cases h

variable {i : Input} {o : Output}

theorem states_stays :
    conn.phase.states (copiedAfter flag ⟨conn, i, o, conn⟩) = conn.phase.states flag := by
  by_cases hphase : conn.phase = .simpleQuery
  · simp [copiedAfter, hphase]
  · exact states_congr hphase _ _

theorem send_walks {m : BackendMessage} {frame : Frame}
    (h : conn.answer (.send m) = some (.ok (conn', some message)))
    (hin : inGrammar flag conn (.call (.send m)) = true) (hstate : state ∈ conn.phase.states flag) :
    ∃ state', transitions.walk state
        (letters ⟨conn, .call (.send m), .sent message frame, conn'⟩) = some state' ∧
      state' ∈ conn'.phase.states
        (copiedAfter flag ⟨conn, .call (.send m), .sent message frame, conn'⟩) := by
  obtain ⟨hphase, rfl, hmessage⟩ := answer_send h
  obtain rfl : message = m := Option.some.inj hmessage
  -- The connection does not move, so the word has to lead back to the same state.
  refine ⟨state, ?_, by rw [states_stays]; exact hstate⟩
  cases hsync : isAsynchronous message with
  | true => simp [letters, hsync]
  | false =>
    have hletters : letters ⟨conn', .call (.send message), .sent message frame, conn'⟩ =
        [.internal message.variant] := by
      simp [letters, hsync]
    rw [hletters]
    rcases hphase with hphase | hphase
    · simp only [inGrammar, hsync, hphase, Bool.false_or, Bool.and_eq_true] at hin
      obtain ⟨hflag, hcontinues⟩ := hin
      cases flag
      · rw [hphase] at hstate
        cases List.mem_singleton.1 hstate
        exact simple_continues hcontinues
      · cases hflag
    · simp only [inGrammar, hsync, hphase, Bool.false_or] at hin
      rw [hphase] at hstate
      cases List.mem_singleton.1 hstate
      exact execute_continues hin

theorem answer_takes {op : Op} (h : conn.answer op = some (.ok (conn', none))) :
    conn.phase = .ready ∧
      ((∃ query, op = .acceptStatelessQuery query ∧ conn' = ⟨.simpleQuery, conn.cleanliness⟩) ∨
        ∃ call, op = .acceptStatelessFunctionCall call ∧
          conn' = ⟨.functionCall, conn.cleanliness⟩) := by
  have hop (m : BackendMessage) : op ≠ .send m := by
    rintro rfl
    exact absurd (answer_send h).2.2 (by simp)
  unfold Conn.answer at h
  split at h
  case h_1 =>
    cases h
    exact ⟨rfl, Or.inl ⟨_, rfl, rfl⟩⟩
  case h_2 =>
    cases h
    exact ⟨rfl, Or.inr ⟨_, rfl, rfl⟩⟩
  case h_5 | h_6 | h_12 | h_13 | h_42 =>
    unfold ready at h
    split at h <;> cases h
  case h_7 | h_24 => exact absurd rfl (hop _)
  case h_31 | h_32 | h_35 | h_40 | h_41 =>
    next resume c _ => cases resume <;> cases h
  all_goals cases h

/-- A step within the grammar is a path of the table. -/
theorem walk_step (hstep : step conn i = .ok (o, conn')) (hin : inGrammar flag conn i = true)
    (hstate : state ∈ conn.phase.states flag) :
    ∃ state', transitions.walk state (letters ⟨conn, i, o, conn'⟩) = some state' ∧
      state' ∈ conn'.phase.states (copiedAfter flag ⟨conn, i, o, conn'⟩) := by
  cases step_moved hstep with
  | @sends op message frame _ hanswer hframe =>
    -- `send` is the one operation that is not an edge of its own.
    by_cases hsend : ∃ m, op = .send m
    · obtain ⟨m, rfl⟩ := hsend
      exact send_walks hanswer hin hstate
    · have hop : ∀ m, op ≠ .send m := fun m heq => hsend ⟨m, heq⟩
      obtain ⟨hsync, hwalk⟩ := answer_walks frame hanswer hop hin hstate
      simpa [letters, hsync] using hwalk
  | takes hanswer =>
    rcases conn with ⟨phase, c⟩
    obtain ⟨rfl, ⟨query, rfl, rfl⟩ | ⟨call, rfl, rfl⟩⟩ := answer_takes hanswer <;>
    · cases List.mem_singleton.1 hstate
      exact ⟨_, rfl, List.mem_singleton.2 rfl⟩
  | accepts hoffer => exact offer_walks hoffer hstate
  | rejects hoffer =>
    refine ⟨state, rfl, ?_⟩
    rw [states_stays]
    exact hstate

theorem offer_dirty {message : FrontendMessage} {branch : Branch} {event : Backend.Event}
    (h : conn.offerFrontend message = some (.accepted conn' branch))
    (hmarked : marked conn (.offer message) = true) (hstate : state ∈ conn.phase.states flag)
    (hevent : Backend.projectExternal state message.variant = some event)
    (hdirty : Backend.isDirty state event = true) : conn'.cleanliness = .dirty := by
  unfold Conn.offerFrontend at h
  split at h
  case h_1 | h_2 =>
    cases List.mem_singleton.1 hstate
    cases message <;> cases h <;> cases hevent
    case execute.refl.refl => exact of_decide_eq_true hmarked (by simp)
    all_goals first | rfl | cases hdirty
  -- No other phase has an annotated transition.
  case h_3 | h_4 | h_5 =>
    next resume c =>
      cases resume <;> cases List.mem_singleton.1 hstate <;> cases hdirty
  case h_6 =>
    cases List.mem_singleton.1 hstate
    cases hdirty
  case h_7 => cases h

/-- A marked step meets the annotations of the table. -/
theorem dirty_step {request : FrontendVariant} {event : Backend.Event}
    (hstep : step conn i = .ok (o, conn')) (hmarked : marked conn i = true)
    (hstate : state ∈ conn.phase.states flag)
    (hletter : Signal.external request ∈ letters ⟨conn, i, o, conn'⟩)
    (hevent : Backend.projectExternal state request = some event)
    (hdirty : Backend.isDirty state event = true) : conn'.cleanliness = .dirty := by
  cases step_moved hstep with
  | @sends op message frame _ hanswer hframe =>
    -- What the server sends is no request.
    simp only [letters] at hletter
    split at hletter <;> simp at hletter
  | takes hanswer =>
    obtain ⟨hphase, ⟨query, rfl, rfl⟩ | ⟨call, rfl, rfl⟩⟩ := answer_takes hanswer
    · exact of_decide_eq_true hmarked
    · exact of_decide_eq_true hmarked
  | accepts hoffer =>
    cases List.mem_singleton.1 hletter
    exact offer_dirty hoffer hmarked hstate hevent hdirty
  | rejects hoffer => cases hletter

/-! ## Runs -/

theorem copied_snoc {h : List Entry} {e : Entry} :
    copied (h ++ [e]) = copiedAfter (copied h) e := by
  simp [copied]

theorem Run.walk {c : Cleanliness} {h : List Entry} (hr : Run c h conn)
    (hin : AllAfter (fun earlier e => inGrammar (copied earlier) e.before e.input = true) h) :
    ∃ state, transitions.walk .ready (h.flatMap letters) = some state ∧
      state ∈ conn.phase.states (copied h) := by
  induction hr with
  | nil => exact ⟨_, rfl, List.mem_singleton.2 rfl⟩
  | @snoc h conn conn' i o _ hstep ih =>
    obtain ⟨state, hwalk, hstate⟩ := ih (AllAfter.left hin)
    have hlast : inGrammar (copied h) conn i = true := hin h ⟨conn, i, o, conn'⟩ [] rfl
    obtain ⟨state', hnext, hstate'⟩ := walk_step hstep hlast hstate
    refine ⟨state', ?_, ?_⟩
    · rw [List.flatMap_append, Table.walk_append, hwalk]
      simpa using hnext
    · rw [copied_snoc]
      exact hstate'

/-- Within the grammar, what a server session consumes and sends is a path of the `backend` table.
After a marked step the connection is dirty if the table annotates its transition so. -/
theorem server_within_grammar {c : Cleanliness} {h : List Entry} {conn : Conn} (hr : Run c h conn)
    (hin : AllAfter (fun earlier e => inGrammar (copied earlier) e.before e.input = true) h) :
    (∃ state, Backend.transitions.walk .ready (h.flatMap letters) = some state ∧
        state ∈ conn.phase.states (copied h)) ∧
      ∀ h₁ e h₂ state request event, h = h₁ ++ e :: h₂ → marked e.before e.input = true →
        Backend.transitions.walk .ready (h₁.flatMap letters) = some state →
        Signal.external request ∈ letters e →
        Backend.projectExternal state request = some event →
        Backend.isDirty state event = true → e.after.cleanliness = .dirty := by
  refine ⟨Run.walk hr hin, ?_⟩
  intro h₁ e h₂ state request event hsplit hmarked hwalk hletter hevent hdirty
  subst hsplit
  obtain ⟨hbefore, hstep, -⟩ := History.split hr
  -- The state before the entry is one that its phase stands for.
  obtain ⟨state', hwalk', hstate⟩ := Run.walk hbefore (AllAfter.left hin)
  obtain rfl : state' = state := Option.some.inj (hwalk'.symm.trans hwalk)
  exact dirty_step hstep hmarked hstate hletter hevent hdirty

/-- A query with a row, a COPY and readiness. -/
def copyRun : List Input :=
  [.offer (.query (ascii "select 1; copy t to stdout")),
    .call (.send (.dataRow ⟨[some [49]]⟩)), .call (.send (.commandComplete (ascii "SELECT 1"))),
    .call (.copyOut ⟨0, []⟩), .call (.data [49, 10]), .call .done,
    .call (.commandComplete (ascii "COPY 1")), .call (.ready .idle)]

theorem server_within_grammar_copyRun :
    ∃ h conn, exec step ⟨.ready, .pristine⟩ copyRun = .ok (h, conn) ∧
      conn = ⟨.ready, .dirty⟩ ∧
      ∃ state, Backend.transitions.walk .ready (h.flatMap letters) = some state ∧
        state ∈ conn.phase.states (copied h) := by
  refine ⟨_, _, rfl, rfl, ?_⟩
  have hrun : Run .pristine _ _ := .of_exec copyRun rfl
  exact (server_within_grammar hrun (by decide)).1

/-- The typestates leave the table with a message which `send` lets through and with a statement
after a simple-query COPY; Execute and a request taken as stateless leave the connection pristine
although the table says `Dirty`. -/
theorem server_leaves_grammar :
    (∃ h conn, exec step ⟨.ready, .pristine⟩ [.offer (.query []), .call (.send .parseComplete)] =
        .ok (h, conn) ∧ Backend.transitions.walk .ready (h.flatMap letters) = none) ∧
    (∃ h conn, exec step ⟨.ready, .pristine⟩ [.offer (.query []), .call (.copyIn ⟨0, []⟩),
        .offer .copyDone, .call (.commandComplete []), .call (.send (.commandComplete []))] =
        .ok (h, conn) ∧ Backend.transitions.walk .ready (h.flatMap letters) = none) ∧
    (∃ h conn, exec step ⟨.ready, .pristine⟩ [.offer (.execute ⟨[], 0⟩)] = .ok (h, conn) ∧
      h.flatMap letters = [.external .execute] ∧
      (Backend.projectExternal .ready .execute).map (Backend.isDirty .ready) = some true ∧
      conn.cleanliness = .pristine) ∧
    ∃ h conn, exec step ⟨.ready, .pristine⟩ [.call (.acceptStatelessQuery [])] = .ok (h, conn) ∧
      h.flatMap letters = [.external .query] ∧
      (Backend.projectExternal .ready .query).map (Backend.isDirty .ready) = some true ∧
      conn.cleanliness = .pristine :=
  ⟨⟨_, _, rfl, rfl⟩, ⟨_, _, rfl, rfl⟩, ⟨_, _, rfl, rfl, rfl, rfl⟩, ⟨_, _, rfl, rfl, rfl, rfl⟩⟩

end ServerSession
end PgProto
