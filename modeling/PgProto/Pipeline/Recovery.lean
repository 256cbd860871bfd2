import PgProto.Pipeline.Ordering

/-!
# Recovery — what an error in the extended protocol leaves behind

After an ErrorResponse has ended an operation of the extended protocol the server skips messages
up to the next Sync.  The ledger is *recovered* when it agrees: nothing live stands before the
first live Sync, and without one the request state is `ExtendedError`.

`enter_extended_error` stops at the first Sync record, live or not, so recovery depends on what
stands behind a Sync that COPY IN has cancelled.  `Pipeline.error_recovery` gives the exact
condition on the ledger before the error.
-/

namespace PgProto

open Lib

/-! ## The discarding scan -/

/-- The records in front of the first Sync record. -/
def beforeSync (os : List Operation) : List Operation :=
  os.takeWhile fun o => decide (o.kind ≠ .sync)

/-- The first Sync record and what follows it. -/
def fromSync (os : List Operation) : List Operation :=
  os.dropWhile fun o => decide (o.kind ≠ .sync)

theorem discardUntilSync_eq (os : List Operation) :
    discardUntilSync os =
      ((beforeSync os).map Operation.discard ++ fromSync os, !(fromSync os).isEmpty) := by
  induction os with
  | nil => rfl
  | cons o os ih =>
    by_cases hsync : o.kind = .sync
    · simp [discardUntilSync, beforeSync, fromSync, hsync]
    · have hbefore : beforeSync (o :: os) = o :: beforeSync os := by
        simp [beforeSync, hsync]
      have hfrom : fromSync (o :: os) = fromSync os := by
        simp [fromSync, hsync]
      simp [discardUntilSync, hsync, ih, hbefore, hfrom]

theorem dropWhile_discardUntilSync (os : List Operation) :
    (discardUntilSync os).1.dropWhile Operation.isInert =
      (fromSync os).dropWhile Operation.isInert := by
  rw [discardUntilSync_eq]
  refine List.dropWhile_append_of_pos ?_
  intro o ho
  rcases List.mem_map.1 ho with ⟨x, -, rfl⟩
  simp [Operation.isInert, Operation.discard]

theorem kind_of_fromSync {os after : List Operation} {o : Operation}
    (h : fromSync os = o :: after) : o.kind = .sync := by
  have hhead := List.head?_dropWhile_not (fun o : Operation => decide (o.kind ≠ .sync)) os
  have h' : os.dropWhile (fun o => decide (o.kind ≠ .sync)) = o :: after := h
  rw [h'] at hhead
  simpa using hhead

namespace Pipeline

/-! ## Recovered ledgers -/

/-- Every record before the first live Sync is discarded, and without a live Sync later messages
are discarded as well. -/
def Recovered (p : Pipeline) : Prop :=
  (∀ o ∈ p.operations.takeWhile (fun o => !o.isLiveSync), o.discarded = true) ∧
    ((∀ o ∈ p.operations, o.isLiveSync = false) → p.requestState = .extendedError)

instance (p : Pipeline) : Decidable p.Recovered :=
  inferInstanceAs (Decidable (_ ∧ _))

/-- The ledger before the error: the first Sync record behind the front is live, or it was
cancelled and nothing that owes a response stands between it and the next live Sync. -/
def SyncBarrier (p : Pipeline) : Prop :=
  match fromSync p.operations.tail with
  | [] => True
  | sync :: after =>
    sync.discarded = false ∨
      match after.dropWhile Operation.isInert with
      | [] => p.requestState = .extendedError
      | o :: _ => o.isLiveSync = true

/-- In a reachable ledger the front record is live, so it decides recovery. -/
theorem Wf.recovered_iff {p : Pipeline} (hwf : p.Wf) :
    p.Recovered ↔
      match p.operations with
      | [] => p.requestState = .extendedError
      | o :: _ => o.isLiveSync = true := by
  unfold Recovered
  cases hops : p.operations with
  | nil => simp
  | cons o os =>
    have hhead : o.isInert = false := hwf.headLive hops
    have hlive : o.discarded = false := (Operation.isInert_eq_false.1 hhead).2
    cases hsync : o.isLiveSync with
    | true =>
      simp [hsync]
    | false =>
      simp [hsync, hlive]

/-- The call ends an operation of the extended protocol with an error. -/
def FailsExtended (e : LedgerEntry) : Prop :=
  ∃ head message, emission? e = some (head, message) ∧ message.variant = .errorResponse ∧
    isExtendedKind head.kind = true ∧ responseIsTerminal head.kind message.variant = true

theorem FailsExtended.after_eq {e : LedgerEntry} (hfail : FailsExtended e)
    (heff : e.before.Effect e.input e.output e.after) :
    ∃ head rest, e.before.operations = head :: rest ∧
      e.after = { e.before with
        operations := (fromSync rest).dropWhile Operation.isInert
        requestState :=
          if (fromSync rest).isEmpty then .extendedError else e.before.requestState
        responseState := none } := by
  rcases hfail with ⟨head, message, hemit, herror, hext, hlast⟩
  rcases emission?_eq_some hemit with ⟨rest, hops, hout, hasync⟩
  rcases e with ⟨p, call, reply, p'⟩
  dsimp only at hout heff hops ⊢
  subst hout
  cases heff with
  | asynchronous _ hasync' =>
    rw [hasync] at hasync'
    cases hasync'
  | continued _ _ hops₂ _ hmore =>
    rw [hops] at hops₂
    cases hops₂
    rw [hlast] at hmore
    cases hmore
  | completed _ _ hops₂ _ _ hplain =>
    rw [hops] at hops₂
    cases hops₂
    exact absurd ⟨herror, hext⟩ hplain
  | failed _ _ hops₂ _ _ _ _ =>
    rw [hops] at hops₂
    cases hops₂
    refine ⟨head, rest, hops, ?_⟩
    rw [dropWhile_discardUntilSync, discardUntilSync_eq]
    cases (fromSync rest).isEmpty <;> rfl

/-! ## Error recovery -/

/-- In every run, an error that ends an operation of the extended protocol leaves a recovered
ledger exactly when the ledger before it has a Sync barrier. -/
theorem error_recovery {policy : PipelinePolicy} {h : List LedgerEntry} {p : Pipeline}
    (hr : Run policy h p) :
    ∀ e ∈ h, FailsExtended e → (e.after.Recovered ↔ e.before.SyncBarrier) := by
  intro e he hfail
  rcases hr.mem_split he with ⟨h₁, h₂, -, hbefore, hstep, -⟩
  have hwf : e.before.Wf := Run.wf hbefore
  have heff := hwf.effect_of_step hstep
  rcases hfail.after_eq heff with ⟨head, rest, hops, hafter⟩
  rw [(hwf.step hstep).recovered_iff, hafter]
  unfold SyncBarrier
  rw [hops, List.tail_cons]
  cases hfrom : fromSync rest with
  | nil => simp
  | cons sync after =>
    have hkind : sync.kind = .sync := kind_of_fromSync hfrom
    cases hdisc : sync.discarded with
    | false =>
      -- The scan stopped at a live Sync, which is now at the front.
      have hinert : sync.isInert = false := by
        simp [Operation.isInert, hkind, hdisc, isInertKind]
      simp [hinert, Operation.isLiveSync, hkind, hdisc]
    | true =>
      -- The scan stopped at a cancelled Sync: the front is whatever owes a response after it.
      have hinert : sync.isInert = true := by
        simp [Operation.isInert, hdisc]
      simp only [List.dropWhile_cons, hinert, if_true, List.isEmpty_cons, Bool.false_eq_true,
        if_false]
      cases after.dropWhile Operation.isInert <;> simp [hdisc]

/-- The usual pipeline: the client's Sync is already queued when the error arrives. -/
theorem error_recovery_sync_queued :
    ∃ h p e, Run (.bounded ⟨4, by decide⟩) h p ∧ e ∈ h ∧ FailsExtended e ∧
      (e.after.Recovered ↔ e.before.SyncBarrier) ∧ e.after.Recovered := by
  obtain ⟨h, p, e, hr, hget, hfail, hrec⟩ :
      ∃ h p e, Run (.bounded ⟨4, by decide⟩) h p ∧ h[2]? = some e ∧ FailsExtended e ∧
        e.after.Recovered := by
    exact ⟨_, _, _, .of_exec [.frontend (.parse ⟨[], [], []⟩) .forward, .frontend .sync .forward,
        .backend (.errorResponse ⟨[]⟩)] rfl, rfl, ⟨_, _, rfl, rfl, rfl, rfl⟩, by decide⟩
  have hmem : e ∈ h := List.mem_of_getElem? hget
  exact ⟨h, p, e, hr, hmem, hfail, error_recovery hr e hmem hfail, hrec⟩

/-- Bind, Execute and Sync are pipelined; the Execute enters COPY IN, CopyDone cancels the Sync,
and the server then reports an error.  The scan takes the cancelled Sync for a barrier: no record
is left and the request state stays `Extended`. -/
theorem cancelled_sync_taken_for_barrier :
    ∃ h p e, Run (.bounded ⟨8, by decide⟩) h p ∧ e ∈ h ∧ FailsExtended e ∧
      ¬ e.after.Recovered ∧ e.after.operations = [] ∧ e.after.requestState = .extended true :=
  ⟨_, _, _, .of_exec [.frontend (.bind ⟨[], [], [], [], []⟩) .forward,
    .frontend (.execute ⟨[], 0⟩) .forward, .frontend .sync .forward, .backend .bindComplete,
    .backend (.copyInResponse ⟨0, []⟩), .frontend .copyDone .forward,
    .backend (.errorResponse ⟨[]⟩)] rfl, List.mem_of_getElem? (i := 6) rfl,
    ⟨_, _, rfl, rfl, rfl, rfl⟩, by decide, rfl, rfl⟩

end Pipeline
end PgProto
