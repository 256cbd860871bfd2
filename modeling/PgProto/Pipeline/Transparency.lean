import PgProto.Pipeline.Server

/-!
# Transparency — pipelining is invisible to a conforming server

A simulation between the server, which works message by message, and the ledger, which has already
accepted more.  The records of the ledger fall into two parts:

* `Owes` — records whose message the server has read; their outstanding answers make up the outbox.
  Behind an error the server has ignored messages whose records the ledger still holds;
* `Pending` — records whose message is still in the inbox.  The ledger may have dropped a record
  before the server reads its message: an inert one, or one discarded by an error.

`Sim` holds initially and is kept by every step of the system, and it makes the next message of the
outbox fit the front record.
-/

namespace PgProto

open Backend (RuntimeState transitions respond)
open Lib
open Operation (admitted isInert isInert_eq_false)

/-! ## Ends of operations -/

variable {kind : OperationKind} {state : RuntimeState} {b : BackendMessage}
  {bs : List BackendMessage} {s : System} {p : Pipeline} {reply : Reply}

/-- The last response of an operation is an error of the extended protocol exactly when it leads
into `ExtendedError`. -/
theorem respond_extendedError_iff {next : RuntimeState} {message : BackendVariant}
    (hstep : respond state message = some next) (howned : state ∈ ownedStates kind)
    (hlast : responseIsTerminal kind message = true) :
    (message = .errorResponse ∧ isExtendedKind kind = true) ↔ next = .extendedError := by
  revert kind
  change ∀ kind, _
  exact Backend.respond_rule (by decide +kernel) hstep

theorem between_not_owned : ∀ kind, ∀ state ∈ ownedStates kind,
    state ∉ [RuntimeState.ready, .building, .extendedError] := by
  decide

/-- The server sends nothing unasked between operations. -/
theorem respond_between (hstate : state ∈ [RuntimeState.ready, .building, .extendedError])
    (message : BackendVariant) : respond state message = none := by
  cases hstep : respond state message with
  | none => rfl
  | some next =>
    refine absurd hstate ?_
    exact Backend.respond_rule (by decide +kernel) hstep

/-! ## The rest of an answer -/

/-- What is left of an answer, from the phase the record is in. -/
structure Remaining (state : RuntimeState) (word : List BackendMessage)
    (final : RuntimeState) : Prop where
  path : transitions.walk state (internalWord word) = some final
  between : final ∈ [RuntimeState.ready, .building, .extendedError]
  noCopy : ∀ b ∈ word, b.variant ≠ .copyInResponse ∧ b.variant ≠ .copyBothResponse

theorem CompleteWord.remaining {word : List BackendMessage} {final : RuntimeState}
    (h : CompleteWord kind word final) : Remaining (initialResponseState kind) word final := by
  refine ⟨h.path, ?_, h.noCopy⟩
  have hmem := h.complete
  cases kind <;> simp_all [completions]

theorem Remaining.cons {final : RuntimeState} {word : List BackendMessage}
    (h : Remaining state word final) (howned : state ∈ ownedStates kind) :
    ∃ b rest next, word = b :: rest ∧ respond state b.variant = some next ∧
      Remaining next rest final := by
  cases word with
  | nil =>
    have heq : state = final := by simpa [internalWord] using h.path
    rw [heq] at howned
    exact absurd h.between (between_not_owned kind final howned)
  | cons b rest =>
    have hpath : (respond state b.variant).bind
        (fun next => transitions.walk next (internalWord rest)) = some final := h.path
    rcases Option.bind_eq_some_iff.1 hpath with ⟨next, hnext, hrest⟩
    exact ⟨b, rest, next, rfl, hnext, hrest, h.between, fun x hx => h.noCopy x (by simp [hx])⟩

theorem Remaining.nil_of_between {final : RuntimeState} {word : List BackendMessage}
    (h : Remaining state word final)
    (hstate : state ∈ [RuntimeState.ready, .building, .extendedError]) :
    word = [] ∧ final = state := by
  cases word with
  | nil =>
    have heq : state = final := by simpa [internalWord] using h.path
    exact ⟨rfl, heq.symm⟩
  | cons b rest =>
    have hpath : (respond state b.variant).bind
        (fun next => transitions.walk next (internalWord rest)) = some final := h.path
    rw [respond_between hstate] at hpath
    cases hpath

/-! ## Records the server has read -/

/-- `Owes skip os out skip' rest`: the server, ignoring messages or not, has read the messages of
the records of `os` in front of `rest`; `out` is what it still owes them. -/
inductive Owes : Bool → List Operation → List BackendMessage → Bool → List Operation → Prop
  | stop {skip os} : Owes skip os [] skip os
  | silent {o os out skip rest} : isInertKind o.kind = true →
      Owes false os out skip rest → Owes false (o :: os) out skip rest
  | answer {o os word final out skip rest} : Remaining o.responseState word final →
      Owes (decide (final = .extendedError)) os out skip rest →
      Owes false (o :: os) (word ++ out) skip rest
  | ignore {o os out skip rest} : o.kind ≠ .sync →
      Owes true os out skip rest → Owes true (o :: os) out skip rest
  | resume {o os status out skip rest} : o.kind = .sync →
      Owes false os out skip rest → Owes true (o :: os) (.readyForQuery status :: out) skip rest

variable {out : List BackendMessage}

theorem Owes.trans {skip₁ skip₂ skip₃ : Bool} {os mid rest : List Operation}
    {out' : List BackendMessage} (h : Owes skip₁ os out skip₂ mid)
    (h' : Owes skip₂ mid out' skip₃ rest) : Owes skip₁ os (out ++ out') skip₃ rest := by
  induction h with
  | stop => exact h'
  | silent hinert _ ih => exact Owes.silent hinert (ih h')
  | @answer o os word final out _ _ hword _ ih =>
    rw [List.append_assoc]
    exact Owes.answer hword (ih h')
  | ignore hkind _ ih => exact Owes.ignore hkind (ih h')
  | resume hkind _ ih => exact Owes.resume hkind (ih h')

theorem Owes.snoc {skip skip' : Bool} {os rest : List Operation} (h : Owes skip os out skip' rest)
    (o : Operation) : Owes skip (os ++ [o]) out skip' (rest ++ [o]) := by
  induction h with
  | stop => exact Owes.stop
  | silent hinert _ ih => exact Owes.silent hinert ih
  | answer hword _ ih => exact Owes.answer hword ih
  | ignore hkind _ ih => exact Owes.ignore hkind ih
  | resume hkind _ ih => exact Owes.resume hkind ih

/-! ## Records the server has not read -/

/-- The kind of record a forwarded message leaves in the ledger, outside COPY. -/
def wireKind? : FrontendVariant → Option OperationKind
  | .sync => some .sync
  | .flush => some .flush
  | .terminate => some .terminate
  | message => answeredKind? message

def isSilentMessage (message : FrontendMessage) : Bool :=
  decide (message.variant = .flush) || decide (message.variant = .terminate)

theorem wireKind?_sync_iff {message : FrontendVariant} :
    wireKind? message = some .sync ↔ message = .sync := by
  cases message <;> simp [wireKind?, answeredKind?]

theorem wireKind?_inert {message : FrontendVariant} (h : wireKind? message = some kind) :
    isInertKind kind = true ↔ message = .flush ∨ message = .terminate := by
  cases message <;> cases h <;> simp [isInertKind]

theorem wireKind?_of_answered {message : FrontendVariant} (h : answeredKind? message = some kind) :
    wireKind? message = some kind := by
  cases message <;> first | exact h | cases h

/-- `Pending skip os inbox`: the messages of the records `os` are in the inbox, in order.  The other
messages of the inbox have no record any more; the server will read them in silence. -/
inductive Pending : Bool → List Operation → List FrontendMessage → Prop
  | nil {skip} : Pending skip [] []
  | record {skip o os message inbox} : wireKind? message.variant = some o.kind →
      o.responseState = initialResponseState o.kind →
      Pending (skip && decide (o.kind ≠ .sync)) os inbox →
      Pending skip (o :: os) (message :: inbox)
  | dropped {skip os message inbox} :
      isSilentMessage message = true ∨ (skip = true ∧ message.variant ≠ .sync) →
      Pending skip os inbox → Pending skip os (message :: inbox)

variable {inbox : List FrontendMessage} {skip : Bool} {message : FrontendMessage} {o : Operation}

theorem Pending.mono {os : List Operation} {skip' : Bool} (h : Pending skip os inbox)
    (hskip : skip = true → skip' = true) : Pending skip' os inbox := by
  induction h generalizing skip' with
  | nil => exact Pending.nil
  | record hkind hstate _ ih =>
    refine Pending.record hkind hstate (ih ?_)
    intro hboth
    simp only [Bool.and_eq_true] at hboth ⊢
    exact ⟨hskip hboth.1, hboth.2⟩
  | dropped hwhy _ ih =>
    refine Pending.dropped ?_ (ih hskip)
    rcases hwhy with hsilent | ⟨htrue, hsync⟩
    · exact Or.inl hsilent
    · exact Or.inr ⟨hskip htrue, hsync⟩

theorem Pending.snoc {os : List Operation} (h : Pending skip os inbox)
    (hkind : wireKind? message.variant = some o.kind)
    (hstate : o.responseState = initialResponseState o.kind) :
    Pending skip (os ++ [o]) (inbox ++ [message]) := by
  induction h with
  | nil => exact Pending.record hkind hstate Pending.nil
  | record hk hs _ ih => exact Pending.record hk hs ih
  | dropped hwhy _ ih => exact Pending.dropped hwhy ih

theorem Pending.snoc_silent {os : List Operation} (h : Pending skip os inbox)
    (hsilent : isSilentMessage message = true) : Pending skip os (inbox ++ [message]) := by
  induction h with
  | nil => exact Pending.dropped (Or.inl hsilent) Pending.nil
  | record hk hs _ ih => exact Pending.record hk hs ih
  | dropped hwhy _ ih => exact Pending.dropped hwhy ih

/-! ## Records the ledger drops -/

theorem fromSync_cons_of_ne (os : List Operation) (h : o.kind ≠ .sync) :
    fromSync (o :: os) = fromSync os := by
  simp [fromSync, h]

theorem fromSync_cons_of_eq (os : List Operation) (h : o.kind = .sync) :
    fromSync (o :: os) = o :: os := by
  simp [fromSync, h]

theorem Pending.fromSync {os : List Operation} (h : Pending skip os inbox) (hskip : skip = true) :
    Pending skip (fromSync os) inbox := by
  induction h with
  | nil => exact Pending.nil
  | @record skip o os message inbox hkind hstate hrest ih =>
    by_cases hsync : o.kind = .sync
    · rw [fromSync_cons_of_eq os hsync]
      exact Pending.record hkind hstate hrest
    · rw [fromSync_cons_of_ne os hsync]
      have hmessage : message.variant ≠ .sync := by
        intro hm
        rw [hm] at hkind
        exact hsync (Option.some.inj hkind).symm
      have hflag : (skip && decide (o.kind ≠ .sync)) = skip := by
        simp [hsync]
      rw [hflag] at ih
      exact Pending.dropped (Or.inr ⟨hskip, hmessage⟩) (ih hskip)
  | dropped hwhy _ ih => exact Pending.dropped hwhy (ih hskip)

theorem Pending.dropInert {os : List Operation} (h : Pending skip os inbox) (hskip : skip = false)
    (hlive : ∀ o ∈ os, o.discarded = false) :
    Pending skip (os.dropWhile isInert) inbox := by
  induction h with
  | nil => exact Pending.nil
  | @record skip o os message inbox hkind hstate hrest ih =>
    by_cases hinert : isInertKind o.kind = true
    · have hdrop : (o :: os).dropWhile isInert = os.dropWhile isInert := by
        simp [isInert, hinert]
      have hsilent : isSilentMessage message = true := by
        simpa [isSilentMessage] using (wireKind?_inert hkind).1 hinert
      have hflag : (skip && decide (o.kind ≠ .sync)) = skip := by
        simp [hskip]
      rw [hflag] at ih
      rw [hdrop]
      exact Pending.dropped (Or.inl hsilent) (ih hskip fun x hx => hlive x (by simp [hx]))
    · have hkeep : (o :: os).dropWhile isInert = o :: os := by
        simp [isInert, hinert, hlive o (by simp)]
      rw [hkeep]
      exact Pending.record hkind hstate hrest
  | dropped hwhy _ ih => exact Pending.dropped hwhy (ih hskip hlive)

theorem Owes.fromSync {f : Bool} {os rest : List Operation} (h : Owes f os out skip rest)
    (hf : f = true) (hpending : Pending skip rest inbox) :
    ∃ rest', Owes true (fromSync os) out skip rest' ∧ Pending skip rest' inbox := by
  induction h with
  | @stop skip os =>
    subst hf
    exact ⟨PgProto.fromSync os, Owes.stop, hpending.fromSync rfl⟩
  | silent _ _ _ | answer _ _ _ => cases hf
  | @ignore o os _ _ _ hkind _ ih =>
    rw [fromSync_cons_of_ne os hkind]
    exact ih rfl hpending
  | @resume o os _ _ _ rest hkind hrest _ =>
    rw [fromSync_cons_of_eq os hkind]
    exact ⟨rest, Owes.resume hkind hrest, hpending⟩

theorem Owes.dropInert {f : Bool} {os rest : List Operation} (h : Owes f os out skip rest)
    (hf : f = false) (hlive : ∀ o ∈ os, o.discarded = false) (hpending : Pending skip rest inbox)
    (howned : ∀ o ∈ os, o.responseState ∈ ownedStates o.kind) :
    ∃ rest', Owes false (os.dropWhile isInert) out skip rest' ∧
      Pending skip rest' inbox := by
  induction h with
  | @stop skip os =>
    subst hf
    exact ⟨os.dropWhile isInert, Owes.stop, hpending.dropInert rfl hlive⟩
  | @silent o os _ _ _ hinert _ ih =>
    have hdrop : (o :: os).dropWhile isInert = os.dropWhile isInert := by
      simp [isInert, hinert]
    rw [hdrop]
    exact ih rfl (fun x hx => hlive x (by simp [hx])) hpending
      (fun x hx => howned x (by simp [hx]))
  | @answer o os word final out skip rest hword hrest _ =>
    -- A record with an answer to come is not inert.
    have hkeep : (o :: os).dropWhile isInert = o :: os := by
      rcases hword.cons (howned o (by simp)) with ⟨b, _, next, -, hnext, -⟩
      have hkind := respond_inert hnext (howned o (by simp))
      simp [isInert, hkind, hlive o (by simp)]
    rw [hkeep]
    exact ⟨rest, Owes.answer hword hrest, hpending⟩
  | ignore _ _ _ | resume _ _ _ => cases hf

theorem Owes.next {f : Bool} {head : Operation} {os rest : List Operation}
    (h : Owes f (head :: os) (b :: bs) skip rest)
    (howned : head.responseState ∈ ownedStates head.kind) (hkind : isInertKind head.kind = false)
    (hfront : f = true → head.kind = .sync) :
    ∃ next, respond head.responseState b.variant = some next ∧
      (b.variant ≠ .copyInResponse ∧ b.variant ≠ .copyBothResponse) ∧
      (responseIsTerminal head.kind b.variant = true →
        Owes (decide (next = .extendedError)) os bs skip rest) ∧
      (responseIsTerminal head.kind b.variant = false →
        Owes false ({ head with responseState := next } :: os) bs skip rest) := by
  generalize hqueue : head :: os = queue at h
  generalize hout : b :: bs = out at h
  -- The front record answers, or it is the Sync at which the server resumes.
  cases h with
  | stop => cases hout
  | silent hinert _ =>
    cases hqueue
    rw [hkind] at hinert
    cases hinert
  | @answer _ _ word final out _ _ hword hrest =>
    cases hqueue
    rcases hword.cons howned with ⟨c, cs, next, rfl, hnext, hremaining⟩
    cases hout
    refine ⟨next, hnext, hword.noCopy b (by simp), ?_, ?_⟩
    · intro hlast
      rcases hremaining.nil_of_between (respond_terminal hnext howned hlast) with ⟨rfl, rfl⟩
      exact hrest
    · intro _
      have hmoved : Remaining ({ head with responseState := next } : Operation).responseState cs
          final := hremaining
      exact Owes.answer hmoved hrest
  | ignore hsync _ =>
    cases hqueue
    exact absurd (hfront rfl) hsync
  | @resume _ _ status _ _ _ hsync hrest =>
    cases hqueue
    cases hout
    have hstate : head.responseState = .syncResponse := by
      rw [hsync] at howned
      simpa [ownedStates] using howned
    have hnext : respond head.responseState (BackendMessage.readyForQuery status).variant =
        some .ready := by
      rw [hstate]
      exact (by decide : respond .syncResponse .readyForQuery = some .ready)
    refine ⟨.ready, hnext, by simp [BackendMessage.variant], ?_, ?_⟩
    · intro _
      exact hrest
    · intro hmore
      rw [hsync] at hmore
      cases hmore

/-! ## The simulation -/


/-- The ledger and the server agree on what is outstanding. -/
structure Sim (s : System) : Prop where
  wf : s.ledger.Wf
  forwarded : s.ledger.AllForwarded
  quiet : s.ledger.QuietInError
  live : ∀ o ∈ s.ledger.operations, o.discarded = false
  plain : ∀ o ∈ s.ledger.operations, isPlain o.responseState = true
  noCopy : s.ledger.requestState ≠ .copyIn ∧ s.ledger.requestState ≠ .copyBoth
  /-- `f`: as seen from the front of the ledger, the server is ignoring messages. -/
  outstanding : ∃ f rest,
    (f = true → (∃ o os, s.ledger.operations = o :: os ∧ o.kind = .sync) ∨
      (s.ledger.operations = [] ∧ s.ledger.requestState = .extendedError)) ∧
    Owes f s.ledger.operations s.outbox s.skipping rest ∧
    Pending s.skipping rest s.inbox

theorem sim_new (policy : PipelinePolicy) : Sim (System.new policy) where
  wf := Pipeline.wf_new policy
  forwarded := Pipeline.allForwarded_new policy
  quiet := fun _ => rfl
  live := by
    intro o ho
    cases ho
  plain := by
    intro o ho
    cases ho
  noCopy := ⟨by simp [System.new, Pipeline.new], by simp [System.new, Pipeline.new]⟩
  outstanding := ⟨false, [], by simp, Owes.stop, Pending.nil⟩

/-! ### Admissions -/

/-- Outside COPY a message is discarded in `ExtendedError` or leaves a record of its own kind. -/
theorem classifyFrontend_plain {state next : RequestState} {message : FrontendVariant}
    (h : classifyFrontend state message = .ok (some (kind, next))) (hin : state ≠ .copyIn)
    (hboth : state ≠ .copyBoth) :
    (state = .extendedError ∧ next = .extendedError ∧ kind ≠ .sync) ∨
      (next ≠ .extendedError ∧ next ≠ .copyIn ∧ next ≠ .copyBoth ∧
        wireKind? message = some kind ∧ (state = .extendedError → kind = .sync)) := by
  cases state <;> cases message <;> cases h <;> simp_all [wireKind?, answeredKind?]

theorem Sim.enqueue_eq (hsim : Sim s) (message : FrontendVariant) (record : Operation) :
    enqueue message s.ledger.requestState record s.ledger.operations =
      if s.ledger.operations = [] ∧ record.isInert = true then
        []
      else
        s.ledger.operations ++ [record] := by
  refine enqueue_plain hsim.noCopy.1 message record fun o os hops => ?_
  have hmem : o ∈ s.ledger.operations := by simp [hops]
  exact advance_plain message (hsim.wf.owned o hmem) (hsim.plain o hmem)

/-- An admission that leaves no record: its message is discarded, or the server will read it in
silence. -/
theorem Sim.keep (hsim : Sim s) (hwf : p.Wf) (hall : p.AllForwarded) (hquiet : p.QuietInError)
    (hnoCopy : p.requestState ≠ .copyIn ∧ p.requestState ≠ .copyBoth)
    (hops : p.operations = s.ledger.operations)
    (hstate : s.ledger.requestState = .extendedError → p.requestState = .extendedError)
    (hpending : ∀ rest, Pending s.skipping rest s.inbox → Pending s.skipping rest inbox) :
    Sim { s with ledger := p, inbox := inbox } := by
  rcases hsim.outstanding with ⟨f, rest, hfront, howes, hrest⟩
  rw [← hops] at hfront howes
  refine ⟨hwf, hall, hquiet, ?_, ?_, hnoCopy, f, rest, ?_, howes, hpending rest hrest⟩
  · intro o ho
    exact hsim.live o (hops ▸ ho)
  · intro o ho
    exact hsim.plain o (hops ▸ ho)
  · intro hf
    rcases hfront hf with hsync | ⟨hempty, herror⟩
    · exact Or.inl hsync
    · exact Or.inr ⟨hempty, hstate herror⟩

theorem Sim.extend (hsim : Sim s) {record : Operation} (hwf : p.Wf) (hall : p.AllForwarded)
    (hquiet : p.QuietInError) (hnoCopy : p.requestState ≠ .copyIn ∧ p.requestState ≠ .copyBoth)
    (hops : p.operations = s.ledger.operations ++ [record]) (hlive : record.discarded = false)
    (hinitial : record.responseState = initialResponseState record.kind)
    (hwire : wireKind? message.variant = some record.kind)
    (hsync : s.ledger.requestState = .extendedError → record.kind = .sync) :
    Sim { s with ledger := p, inbox := s.inbox ++ [message] } := by
  rcases hsim.outstanding with ⟨f, rest, hfront, howes, hpending⟩
  have hmem : ∀ o ∈ p.operations, o ∈ s.ledger.operations ∨ o = record := by
    intro o ho
    rw [hops] at ho
    simpa using ho
  refine ⟨hwf, hall, hquiet, ?_, ?_, hnoCopy, f, rest ++ [record], ?_, ?_,
    hpending.snoc hwire hinitial⟩
  · intro o ho
    rcases hmem o ho with ho | rfl
    · exact hsim.live o ho
    · exact hlive
  · intro o ho
    rcases hmem o ho with ho | rfl
    · exact hsim.plain o ho
    · rw [hinitial]
      exact initialResponseState_plain o.kind
  · intro hf
    left
    rcases hfront hf with ⟨o, os, hcons, hkind⟩ | ⟨hempty, herror⟩
    · exact ⟨o, os ++ [record], by simp [hops, hcons], hkind⟩
    · exact ⟨record, [], by simp [hops, hempty], hsync herror⟩
  · dsimp only
    rw [hops]
    exact howes.snoc record

theorem Sim.offer (hsim : Sim s)
    (hstep : Pipeline.Step s.ledger (.frontend message .forward) reply p) :
    Sim { s with ledger := p, inbox := s.inbox ++ handedOn reply } := by
  have heff := hsim.wf.effect_of_step hstep
  have hwf := hsim.wf.step hstep
  have hall := hsim.forwarded.effect heff rfl
  have hcopy : ¬ Pipeline.FailsCopyIn ⟨s.ledger, .frontend message .forward, reply, p⟩ :=
    fun h => hsim.noCopy.1 h.1
  have hquiet := hsim.quiet.effect hsim.forwarded heff hcopy
  cases heff with
  | asynchronous hcall _ | deferred hcall _ | illegal hcall _ | continued hcall _ _ _ _
  | completed hcall _ _ _ _ _ | failed hcall _ _ _ _ _ _ => cases hcall
  | refused _ =>
    refine hsim.keep hwf hall hquiet hsim.noCopy rfl id ?_
    intro rest hrest
    simpa [handedOn] using hrest
  | @accepted _ _ kind next _ _ hproject _ =>
    have hhanded : ∀ discarded, handedOn (.frontend (.ok (.behind (!s.ledger.operations.isEmpty)
        (FrontendHandling.forward.action discarded s.ledger.nextId message)))) =
        if discarded then [] else [message] := by
      intro discarded
      cases discarded <;> simp [handedOn, Pipeline.intoAction_behind, FrontendHandling.action]
    have hops := hsim.enqueue_eq message.variant
      (admitted s.ledger.nextId kind next .forward)
    rw [hhanded]
    rcases classifyFrontend_plain (projectFrontend_classify hproject) hsim.noCopy.1
      hsim.noCopy.2 with ⟨hstate, rfl, hkind⟩ | ⟨hnerr, hnin, hnboth, hwire, hsync⟩
    · -- Discarded: nothing is outstanding, and nothing is handed on.
      have hmark : (admitted s.ledger.nextId kind .extendedError .forward).discarded =
          true := by
        simp [admitted, hkind]
      rw [hsim.quiet hstate] at hops
      rw [hmark]
      refine hsim.keep hwf hall hquiet (by simp) ?_ (fun _ => rfl) ?_
      · simpa [hsim.quiet hstate, isInert, hmark] using hops
      · intro rest hrest
        simpa using hrest
    · have hmark : (admitted s.ledger.nextId kind next .forward).discarded = false := by
        simp [admitted, hnerr]
      rw [hmark]
      by_cases hdrop : s.ledger.operations = [] ∧
          (admitted s.ledger.nextId kind next .forward).isInert = true
      · -- An inert record at the front is dropped at once.
        rw [if_pos hdrop] at hops
        have hinert : isInertKind kind = true := by
          have hboth := hdrop.2
          simp only [isInert, hmark, Bool.or_false] at hboth
          exact hboth
        have hsilent : isSilentMessage message = true := by
          simpa [isSilentMessage] using (wireKind?_inert hwire).1 hinert
        refine hsim.keep hwf hall hquiet ⟨hnin, hnboth⟩ (hops.trans hdrop.1.symm) ?_ ?_
        · intro hstate
          have hk := hsync hstate
          subst hk
          cases hinert
        · intro rest hrest
          exact hrest.snoc_silent hsilent
      · rw [if_neg hdrop] at hops
        exact hsim.extend hwf hall hquiet ⟨hnin, hnboth⟩ hops hmark rfl hwire hsync

/-! ### The server reads -/

theorem Sim.serve (hsim : Sim s) {messages : List FrontendMessage} {word : List BackendMessage}
    {skipping : Bool} (hinbox : s.inbox = message :: messages)
    (hserves : Serves s.skipping message word skipping) :
    Sim { s with inbox := messages, skipping := skipping, outbox := s.outbox ++ word } := by
  rcases hsim.outstanding with ⟨f, rest, hfront, howes, hpending⟩
  rw [hinbox] at hpending
  -- One more record is read, or a message without a record is read in silence.
  have hread : ∃ rest', Owes s.skipping rest word skipping rest' ∧
      Pending skipping rest' messages := by
    generalize hskip : s.skipping = skip at hpending hserves
    cases hpending with
    | @record _ o os _ _ hkind hstate hrest =>
      cases hserves with
      | ignored hsync =>
        have hne : o.kind ≠ .sync := by
          intro h
          rw [h] at hkind
          exact hsync (wireKind?_sync_iff.1 hkind)
        refine ⟨os, Owes.ignore hne Owes.stop, hrest.mono ?_⟩
        intro _
        rfl
      | @sync _ status =>
        have hkind' : o.kind = .sync := (Option.some.inj hkind).symm
        refine ⟨os, ?_, hrest.mono ?_⟩
        · cases skip with
          | true => exact Owes.resume hkind' Owes.stop
          | false =>
            have hword : Remaining o.responseState [.readyForQuery status] .ready := by
              rw [hstate, hkind']
              refine ⟨?_, by simp, by simp [BackendMessage.variant]⟩
              exact (by decide : transitions.walk .syncResponse [.internal .readyForQuery] =
                some .ready)
            exact Owes.answer hword Owes.stop
        · intro h
          simp [hkind'] at h
      | silent hsilent =>
        have hinert : isInertKind o.kind = true := (wireKind?_inert hkind).2 hsilent
        exact ⟨os, Owes.silent hinert Owes.stop, hrest.mono (by simp)⟩
      | @answered _ kind _ final hanswered hword =>
        have hkind' : kind = o.kind := by
          have h := wireKind?_of_answered hanswered
          rw [hkind] at h
          exact (Option.some.inj h).symm
        have hremaining : Remaining o.responseState word final := by
          rw [hstate, ← hkind']
          exact hword.remaining
        have hstop : Owes (decide (final = .extendedError)) os []
            (decide (final = .extendedError)) os := Owes.stop
        refine ⟨os, ?_, hrest.mono (by simp)⟩
        simpa using Owes.answer hremaining hstop
    | dropped hwhy hrest =>
      cases hserves with
      | ignored _ | silent _ => exact ⟨rest, Owes.stop, hrest⟩
      | sync =>
        rcases hwhy with hsilent | ⟨-, hsync⟩
        · cases hsilent
        · exact absurd rfl hsync
      | answered hanswered _ =>
        rcases hwhy with hsilent | ⟨htrue, -⟩
        · simp only [isSilentMessage, Bool.or_eq_true, decide_eq_true_eq] at hsilent
          rcases hsilent with h | h <;> rw [h] at hanswered <;> cases hanswered
        · cases htrue
  rcases hread with ⟨rest', howes', hpending'⟩
  exact ⟨hsim.wf, hsim.forwarded, hsim.quiet, hsim.live, hsim.plain, hsim.noCopy, f, rest',
    hfront, howes.trans howes', hpending'⟩

/-! ### Deliveries -/

theorem Sim.front (hsim : Sim s) (hout : s.outbox = b :: bs) :
    ∃ head os next rest, s.ledger.operations = head :: os ∧
      respond head.responseState b.variant = some next ∧ isPlain next = true ∧
      (responseIsTerminal head.kind b.variant = true →
        Owes (decide (next = .extendedError)) os bs s.skipping rest) ∧
      (responseIsTerminal head.kind b.variant = false →
        Owes false ({ head with responseState := next } :: os) bs s.skipping rest) ∧
      Pending s.skipping rest s.inbox := by
  rcases hsim.outstanding with ⟨f, rest, hfront, howes, hpending⟩
  rw [hout] at howes
  cases hops : s.ledger.operations with
  | nil =>
    rw [hops] at howes
    cases howes
  | cons head os =>
    rw [hops] at howes
    have hmem : head ∈ s.ledger.operations := by simp [hops]
    have hhead := isInert_eq_false.1 (hsim.wf.headLive hops)
    have hsync : f = true → head.kind = .sync := by
      intro hf
      rcases hfront hf with ⟨o, os', hcons, hk⟩ | ⟨hempty, -⟩
      · rw [hops] at hcons
        cases hcons
        exact hk
      · rw [hops] at hempty
        cases hempty
    rcases howes.next (hsim.wf.owned head hmem) hhead.1 hsync with
      ⟨next, hnext, hcopy, hlast, hmore⟩
    exact ⟨head, os, next, rest, rfl, hnext, respond_plain hnext (hsim.plain head hmem) hcopy,
      hlast, hmore, hpending⟩

theorem Sim.emits (hsim : Sim s) (hout : s.outbox = b :: bs) :
    ∃ p, s.ledger.call (.backend b) = .ok (.backend (.ok (.emit b)), p) := by
  rcases hsim.front hout with ⟨head, os, next, -, hops, hnext, -⟩
  have hmem : head ∈ s.ledger.operations := by simp [hops]
  have hfits : responseFits head b.variant = true := responseFits_of_respond hnext
  have horigin : (Call.backend b).Addresses head := hsim.forwarded head hmem
  rcases Pipeline.call_of_fits hops (hsim.live head hmem) rfl horigin hfits with ⟨_, -, hcall⟩
  exact ⟨_, hcall⟩

theorem Sim.deliver (hsim : Sim s) (hout : s.outbox = b :: bs)
    (hstep : Pipeline.Step s.ledger (.backend b) reply p) :
    Sim { s with ledger := p, outbox := bs } := by
  have heff := hsim.wf.effect_of_step hstep
  have hwf := hsim.wf.step hstep
  have hall := hsim.forwarded.effect heff trivial
  have hcopy : ¬ Pipeline.FailsCopyIn ⟨s.ledger, .backend b, reply, p⟩ :=
    fun h => hsim.noCopy.1 h.1
  have hquiet := hsim.quiet.effect hsim.forwarded heff hcopy
  rcases hsim.front hout with ⟨head, os, next, rest, hops, hnext, hplain, hlast, hmore, hpending⟩
  rcases hsim.emits hout with ⟨q, hcall⟩
  have hreply : reply = .backend (.ok (.emit b)) := by
    have hstep' : s.ledger.call (.backend b) = .ok (reply, p) := hstep
    rw [hcall] at hstep'
    cases hstep'
    rfl
  have howned := hsim.wf.owned head (by simp [hops])
  have hlive : ∀ o ∈ os, o.discarded = false := by
    intro o ho
    exact hsim.live o (by simp [hops, ho])
  have hplains : ∀ o ∈ os, isPlain o.responseState = true := by
    intro o ho
    exact hsim.plain o (by simp [hops, ho])
  subst hreply
  cases heff with
  | asynchronous hcall hasync =>
    cases hcall
    have hsync : isAsynchronous b = false := respond_not_asynchronous hnext
    rw [hsync] at hasync
    cases hasync
  | @continued _ _ _ _ next' hcall _ hops' hnext' hgoes =>
    cases hcall
    rw [hops] at hops'
    cases hops'
    rw [hnext] at hnext'
    cases hnext'
    have hstate := copyRequest_plain hplain s.ledger.requestState
    refine ⟨hwf, hall, hquiet, ?_, ?_, ?_, false, rest, by simp, hmore hgoes, hpending⟩
    · intro o ho
      rcases List.mem_cons.1 ho with rfl | ho
      · have hhead : head.discarded = false := hsim.live head (by simp [hops])
        exact hhead
      · exact hlive o ho
    · intro o ho
      rcases List.mem_cons.1 ho with rfl | ho
      · exact hplain
      · exact hplains o ho
    · dsimp only
      rw [hstate]
      exact hsim.noCopy
  | @completed _ _ _ _ next' hcall _ hops' hnext' hends hordinary =>
    cases hcall
    rw [hops] at hops'
    cases hops'
    rw [hnext] at hnext'
    cases hnext'
    have hflag : decide (next = .extendedError) = false := by
      have hiff := respond_extendedError_iff hnext howned hends
      exact decide_eq_false fun h => hordinary (hiff.2 h)
    have howes := hlast hends
    rw [hflag] at howes
    have howneds : ∀ o ∈ os, o.responseState ∈ ownedStates o.kind := by
      intro o ho
      exact hsim.wf.owned o (by simp [hops, ho])
    rcases howes.dropInert rfl hlive hpending howneds with ⟨rest', howes', hpending'⟩
    refine ⟨hwf, hall, hquiet, ?_, ?_, hsim.noCopy, false, rest', by simp, howes', hpending'⟩
    · intro o ho
      exact hlive o ((List.dropWhile_suffix _).subset ho)
    · intro o ho
      exact hplains o ((List.dropWhile_suffix _).subset ho)
  | @failed _ _ _ _ next' hcall _ hops' hnext' hends herror hext =>
    cases hcall
    rw [hops] at hops'
    cases hops'
    rw [hnext] at hnext'
    cases hnext'
    have hflag : decide (next = .extendedError) = true :=
      decide_eq_true ((respond_extendedError_iff hnext howned hends).1 ⟨herror, hext⟩)
    have howes := hlast hends
    rw [hflag] at howes
    have hsuffix : ∀ o ∈ fromSync os, o ∈ os := fun o ho => (List.dropWhile_suffix _).subset ho
    -- What is left starts with a live Sync, so nothing more is dropped.
    have hqueue : (discardUntilSync os).1.dropWhile isInert = fromSync os := by
      rw [dropWhile_discardUntilSync]
      cases hfrom : fromSync os with
      | nil => rfl
      | cons o after =>
        have hk := kind_of_fromSync hfrom
        have hd := hlive o (hsuffix o (by simp [hfrom]))
        simp [isInert, hk, hd, isInertKind]
    have hfound : (discardUntilSync os).2 = !(fromSync os).isEmpty := by
      rw [discardUntilSync_eq]
    rcases howes.fromSync rfl hpending with ⟨rest', howes', hpending'⟩
    refine ⟨hwf, hall, hquiet, ?_, ?_, ?_, true, rest', ?_, ?_, hpending'⟩
    · intro o ho
      exact hlive o (hsuffix o (hqueue ▸ ho))
    · intro o ho
      exact hplains o (hsuffix o (hqueue ▸ ho))
    · dsimp only
      split
      · exact hsim.noCopy
      · simp
    · intro _
      dsimp only
      rw [hqueue, hfound]
      cases hfrom : fromSync os with
      | nil => exact Or.inr ⟨rfl, by simp⟩
      | cons o after => exact Or.inl ⟨o, after, rfl, kind_of_fromSync hfrom⟩
    · dsimp only
      rw [hqueue]
      exact howes'

theorem Sim.notify (hsim : Sim s) (hasync : isAsynchronous b = true)
    (hstep : Pipeline.Step s.ledger (.backend b) reply p) : Sim { s with ledger := p } := by
  have hsame : p = s.ledger := by
    have hprep : s.ledger.prepareResponse none b = .asynchronous :=
      Pipeline.prepareResponse_eq_asynchronous.2 hasync
    have hstep' : s.ledger.call (.backend b) = .ok (reply, p) := hstep
    simp only [Pipeline.call, Pipeline.acceptBackend, Pipeline.acceptResponse, hprep,
      Pipeline.commitResponse, Except.map, Except.ok.injEq, Prod.mk.injEq] at hstep'
    exact hstep'.2.symm
  rw [hsame]
  exact hsim

/-! ## Transparency -/

theorem Sim.step {t : System} {event : SystemEvent} {reply : Option Reply} (hsim : Sim s)
    (hstep : System.Step s event reply t) : Sim t := by
  cases hstep with
  | offer hstep => exact hsim.offer hstep
  | serve hinbox hserves => exact hsim.serve hinbox hserves
  | deliver hout hstep => exact hsim.deliver hout hstep
  | notify hasync hstep => exact hsim.notify hasync hstep

theorem Sim.empty (hsim : Sim s) (hinbox : s.inbox = []) (houtbox : s.outbox = []) :
    s.ledger.operations = [] := by
  rcases hsim.outstanding with ⟨f, rest, hfront, howes, hpending⟩
  rw [hinbox] at hpending
  cases hpending
  rw [houtbox] at howes
  cases hops : s.ledger.operations with
  | nil => rfl
  | cons head os =>
    rw [hops] at howes
    have hhead := isInert_eq_false.1 (hsim.wf.headLive hops)
    generalize hout : ([] : List BackendMessage) = out at howes
    cases howes with
    | silent hinert _ =>
      rw [hhead.1] at hinert
      cases hinert
    | answer hword _ =>
      rcases hword.cons (hsim.wf.owned head (by simp [hops])) with ⟨b, cs, -, rfl, -⟩
      cases hout
    | ignore hkind _ =>
      rcases hfront rfl with ⟨o, os', hcons, hk⟩ | ⟨hempty, -⟩
      · rw [hops] at hcons
        cases hcons
        exact absurd hk hkind
      · rw [hops] at hempty
        cases hempty
    | resume _ _ => cases hout

/-- Pipelining is transparent to a conforming server: in every state that an interleaving of
admissions, answers and deliveries can reach, the next message of the server is emitted, and so is
an asynchronous one; and when every forwarded message has been read and every response delivered,
the ledger is empty. -/
theorem pipelining_transparent {policy : PipelinePolicy}
    {h : List (Entry System SystemEvent (Option Reply))} {s : System}
    (hr : System.Run policy h s) :
    (∀ b bs, s.outbox = b :: bs →
      ∃ p, s.ledger.acceptBackend b = .ok (.ok (.emit b), p)) ∧
    (∀ b, isAsynchronous b = true →
      ∃ p, s.ledger.acceptBackend b = .ok (.ok (.emit b), p)) ∧
    (s.inbox = [] → s.outbox = [] → s.ledger.operations = []) := by
  have hsim : Sim s := hr.invariant (sim_new policy) fun _ _ _ _ hs hstep => hs.step hstep
  refine ⟨?_, ?_, hsim.empty⟩
  · intro b bs hout
    rcases hsim.emits hout with ⟨p, hcall⟩
    cases hresult : s.ledger.acceptBackend b with
    | error panic => simp [Pipeline.call, hresult, Except.map] at hcall
    | ok r =>
      rcases r with ⟨result, q⟩
      simp only [Pipeline.call, hresult, Except.map, Except.ok.injEq, Prod.mk.injEq,
        Reply.backend.injEq] at hcall
      rw [hcall.1]
      exact ⟨q, rfl⟩
  · intro b hasync
    have hprep : s.ledger.prepareResponse none b = .asynchronous :=
      Pipeline.prepareResponse_eq_asynchronous.2 hasync
    refine ⟨s.ledger, ?_⟩
    simp only [Pipeline.acceptBackend, Pipeline.acceptResponse, hprep, Pipeline.commitResponse]

/-- A Parse answered with an error while the Bind behind it is on its way: the server ignores the
Bind, the ledger drops its record, and the Sync behind both is answered. -/
theorem pipelining_transparent_ignored_bind :
    ∃ h s, System.Run (.bounded ⟨4, by decide⟩) h s ∧ h.length = 8 ∧
      s.inbox = [] ∧ s.outbox = [] ∧ s.ledger.operations = [] := by
  have hoffer : ∀ s : System, ∀ message reply p,
      s.ledger.call (.frontend message .forward) = .ok (reply, p) →
      History System.Step s
        [⟨s, .offer message, some reply,
          { s with ledger := p, inbox := s.inbox ++ handedOn reply }⟩]
        { s with ledger := p, inbox := s.inbox ++ handedOn reply } :=
    fun _ _ _ _ hcall => History.single (.offer hcall)
  have hdeliver : ∀ s : System, ∀ b bs reply p, s.outbox = b :: bs →
      s.ledger.call (.backend b) = .ok (reply, p) →
      History System.Step s [⟨s, .deliver, some reply, { s with ledger := p, outbox := bs }⟩]
        { s with ledger := p, outbox := bs } :=
    fun _ _ _ _ _ hout hcall => History.single (.deliver hout hcall)
  have hsync : Serves true .sync [.readyForQuery .idle] false := .sync
  have hfailed : CompleteWord .parse [.errorResponse ⟨[]⟩] .extendedError :=
    ⟨by decide, by decide, by decide⟩
  have hrun : ∃ h s, System.Run (.bounded ⟨4, by decide⟩) h s ∧ h.length = 8 ∧
      s.inbox = [] ∧ s.outbox = [] := by
    refine ⟨_, _, (hoffer (System.new _) (.parse ⟨[], [], []⟩) _ _ rfl).append
      ((hoffer _ (.bind ⟨[], [], [], [], []⟩) _ _ rfl).append
      ((History.single (.serve rfl (.answered rfl hfailed))).append
      ((History.single (.serve rfl (.ignored (by decide)))).append
      ((hoffer _ .sync _ _ rfl).append
      ((History.single (.serve rfl hsync)).append
      ((hdeliver _ _ _ _ _ rfl rfl).append (hdeliver _ _ _ _ _ rfl rfl))))))), rfl, rfl, rfl⟩
  rcases hrun with ⟨h, s, hrun, hlen, hinbox, houtbox⟩
  exact ⟨h, s, hrun, hlen, hinbox, houtbox, (pipelining_transparent hrun).2.2 hinbox houtbox⟩

end PgProto
