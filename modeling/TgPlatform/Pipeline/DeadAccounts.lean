import TgPlatform.Lib.Except
import TgPlatform.Pipeline.Steps
import TgPlatform.Pipeline.Transport

/-! # Whose error it is

The error of a transport call says nothing about the account whose session has
raised it. The sending account's runner is halted and its job fails for good
also where it is the fetch account that is dead.
-/

namespace TgPlatform

/-! ## Failures and their accounts -/

section Failures

variable {α β : Type} {P Q : TransportFailure → Prop} {x : Exchange α} {k : α → Exchange β}
  {f : TransportFailure}

/-- All failures of a part of a call are such. -/
def Fails (P : TransportFailure → Prop) (x : Exchange α) : Prop := ∀ f, x = .error f → P f

theorem Fails.bind (hx : Fails P x) (hk : ∀ a, Fails P (k a)) : Fails P (x >>= k) := by
  intro f hf
  rcases Except.bind_eq_error.mp hf with hf | ⟨a, -, hf⟩
  · exact hx f hf
  · exact hk a f hf

theorem Fails.pure {a : α} : Fails P (Pure.pure a : Exchange α) := nofun

theorem Fails.throw (h : P f) : Fails P (MonadExcept.throw f : Exchange α) := by
  rintro _ ⟨⟩
  exact h

theorem Fails.mono (hPQ : ∀ f, P f → Q f) (h : Fails P x) : Fails Q x := fun f hf => hPQ f (h f hf)

end Failures

/-- Sessions of these accounts alone raise errors; the others are about the content or may pass. -/
def RaisedBy (accounts : List AccountId) : TransportFailure → Prop
  | .error _ _ _ (some accountId) => accountId ∈ accounts
  | .error kind _ _ none => kind = .content ∨ kind = .transient
  | .exception _ => True

theorem raisedBy_failure (e : ClientError) (now : Time) (accountId : AccountId) :
    RaisedBy [accountId] (e.failure now accountId) := by
  unfold ClientError.failure
  split <;> exact List.mem_singleton_self _

theorem failure_eq_auth {e : ClientError} {now : Time} {accountId : AccountId} :
    (∃ detail until_, e.failure now accountId = .error .auth detail until_ (some accountId)) ↔
      e.exception.kind = .auth := by
  unfold ClientError.failure
  cases e.exception <;> simp [ClientException.kind]

namespace Surroundings

variable {env : Surroundings} {plan : DeliveryPlan} {request : TransportRequest}
  {self fetcher : AccountId}

theorem call_fails {α : Type} {answer : Except ClientError α} :
    Fails (RaisedBy [self]) (env.call self answer) := by
  intro f hf
  cases answer with
  | ok a => cases hf
  | error e =>
    cases hf
    exact raisedBy_failure e env.now self

theorem contentError_fails {α : Type} {detail : String} {accounts : List AccountId} :
    Fails (RaisedBy accounts) (contentError detail : Exchange α) := .throw (.inl rfl)

theorem candidateText_fails {uuid : String} {expectedHash : Option String} {accounts : List AccountId} :
    Fails (RaisedBy accounts) (env.candidateText uuid expectedHash) := by
  unfold candidateText
  split
  · exact .throw trivial
  · split
    · exact contentError_fails
    · split
      · exact contentError_fails
      · exact .pure

theorem entity_fails {targetId : ℤ} : Fails (RaisedBy [self]) (env.entity self targetId) := by
  unfold entity
  split
  · exact .pure
  · exact .bind call_fails fun _ => .pure

theorem transform_fails {text : String} {accounts : List AccountId} :
    Fails (RaisedBy accounts) (env.transform plan text) := by
  unfold transform
  split
  · exact .pure
  · split
    · exact .throw (.inr rfl)
    · split
      · exact contentError_fails
      · exact .pure

theorem fetchSource_fails : Fails (RaisedBy [fetcher]) (env.fetchSource plan fetcher) := by
  refine .bind call_fails fun src => ?_
  cases src with
  | some src => exact .pure
  | none => exact contentError_fails

theorem mediaFile_fails {src : SourceContent} : Fails (RaisedBy [fetcher])
    (env.mediaFile self src fetcher) := by
  unfold mediaFile
  split
  · exact .pure
  · split
    · exact .pure
    · refine .bind call_fails fun data => ?_
      cases data <;> exact .pure

theorem raisedBy_mono {accounts accounts' : List AccountId} (h : ∀ a ∈ accounts, a ∈ accounts')
    (f : TransportFailure) (hf : RaisedBy accounts f) : RaisedBy accounts' f := by
  unfold RaisedBy at *
  split <;> simp_all

theorem copied_fails : Fails (RaisedBy [env.fetcherFor plan, plan.accountId]) (env.copied plan) := by
  have hfetcher : ∀ f, RaisedBy [env.fetcherFor plan] f →
      RaisedBy [env.fetcherFor plan, plan.accountId] f := raisedBy_mono (by simp)
  have hself : ∀ f, RaisedBy [plan.accountId] f →
      RaisedBy [env.fetcherFor plan, plan.accountId] f := raisedBy_mono (by simp)
  exact .bind (fetchSource_fails.mono hfetcher) fun src =>
    .bind (entity_fails.mono hself) fun _ => .bind transform_fails fun _ =>
      .bind (mediaFile_fails.mono hfetcher) fun _ => .pure

def Copies (plan : DeliveryPlan) : TransportRequest → Prop
  | .send => plan.payloadRef.bind candidateRef = none ∧ plan.mode = .copy
  | .edit _ => True
  | .delete _ => False

def sendsOn (env : Surroundings) (plan : DeliveryPlan) (request : TransportRequest)
    (copy : Peer × String × MediaParts) : Exchange (List ℤ) :=
  let self := env.client plan.accountId
  match request with
  | .send => do
    let id ← env.call plan.accountId (match copy.2.2.file with
      | none => self.sendMessage copy.1 copy.2.1 plan.replyToTargetMessageId
      | some _ => self.sendFile copy.1 copy.2.2 copy.2.1 plan.replyToTargetMessageId)
    pure [id]
  | .edit targetMessageId => do
    env.call plan.accountId (self.editMessage copy.1 targetMessageId copy.2.1 copy.2.2.file)
    pure []
  | .delete _ => pure []

theorem exchange_eq (h : Copies plan request) :
    env.exchange request plan = env.copied plan >>= env.sendsOn plan request := by
  cases request with
  | send =>
    obtain ⟨hcandidate, hmode⟩ := h
    unfold exchange send resolveText
    rw [hcandidate]
    simp only [pure_bind, hmode, reduceCtorEq, if_false]
    rfl
  | edit targetMessageId =>
    unfold exchange edit
    simp only [bind_assoc]
    rfl
  | delete targetMessageIds => cases h

theorem sendsOn_fails {copy : Peer × String × MediaParts} :
    Fails (RaisedBy [plan.accountId]) (env.sendsOn plan request copy) := by
  cases request with
  | send => exact .bind call_fails fun _ => .pure
  | edit targetMessageId => exact .bind call_fails fun _ => .pure
  | delete targetMessageIds => exact .pure

theorem exchange_fails (h : ¬ Copies plan request) :
    Fails (RaisedBy [plan.accountId]) (env.exchange request plan) := by
  cases request with
  | send =>
    unfold exchange send resolveText
    cases hcandidate : plan.payloadRef.bind candidateRef with
    | some uuid =>
      simp only [bind_assoc, pure_bind]
      exact .bind candidateText_fails fun text => .bind entity_fails fun _ =>
        .bind call_fails fun _ => .pure
    | none =>
      simp only [pure_bind]
      split
      · exact call_fails
      · rename_i hmode
        refine absurd ⟨hcandidate, ?_⟩ h
        cases hcopy : plan.mode with
        | copy => rfl
        | forward => exact absurd hcopy hmode
  | edit targetMessageId => exact absurd trivial h
  | delete targetMessageIds => exact .bind (.bind entity_fails fun _ => call_fails) fun _ => .pure

/-! ## A dead fetch account -/

/-- The fetch account's session is refused when it reads the source message, or, after the sender's
part until then has gone well, when it downloads the media. -/
def FetchRefused (env : Surroundings) (plan : DeliveryPlan) : Prop :=
  let fetcher := env.client (env.fetcherFor plan)
  ∃ e : ClientError, e.exception.kind = .auth ∧
    (fetcher.getMessages plan.sourceChatId plan.sourceMessageId = .error e ∨
      ∃ src media peer text, fetcher.getMessages plan.sourceChatId plan.sourceMessageId =
        .ok (some src) ∧
        env.entity plan.accountId plan.targetChatId = .ok peer ∧
        env.transform plan ((truthy src.text).getD "") = .ok text ∧
        src.media = some media ∧ fetcher.downloadMedia src = .error e)

def Refused (accountId : AccountId) (f : TransportFailure) : Prop :=
  ∃ detail until_, f = .error .auth detail until_ (some accountId)

theorem Refused.not_raisedBy {f : TransportFailure} {accountId other : AccountId}
    (h : Refused accountId f)
    (hne : accountId ≠ other) : ¬ RaisedBy [other] f := by
  obtain ⟨detail, until_, rfl⟩ := h
  intro hraised
  exact hne (List.mem_singleton.mp hraised)

theorem call_refused {α : Type} {answer : Except ClientError α} :
    (∃ f, env.call self answer = .error f ∧ Refused self f) ↔
      ∃ e, answer = .error e ∧ e.exception.kind = .auth := by
  unfold call
  cases answer with
  | ok a =>
    constructor
    · rintro ⟨f, ⟨⟩, -⟩
    · rintro ⟨e, ⟨⟩, -⟩
  | error e =>
    constructor
    · rintro ⟨f, ⟨⟩, hrefused⟩
      exact ⟨e, rfl, failure_eq_auth.mp hrefused⟩
    · rintro ⟨e', ⟨⟩, hkind⟩
      exact ⟨_, rfl, failure_eq_auth.mpr hkind⟩

theorem fetchSource_eq_ok {src : SourceContent} : env.fetchSource plan fetcher = .ok src ↔
    (env.client fetcher).getMessages plan.sourceChatId plan.sourceMessageId = .ok (some src) := by
  unfold fetchSource call
  cases (env.client fetcher).getMessages plan.sourceChatId plan.sourceMessageId with
  | error e => exact ⟨nofun, nofun⟩
  | ok found =>
    cases found with
    | none => exact ⟨nofun, nofun⟩
    | some src' =>
      constructor <;> rintro ⟨⟩ <;> rfl

theorem fetchSource_refused : (∃ f, env.fetchSource plan fetcher = .error f ∧ Refused fetcher f) ↔
    ∃ e : ClientError, (env.client fetcher).getMessages plan.sourceChatId plan.sourceMessageId =
      .error e ∧
      e.exception.kind = .auth := by
  have hcall : (∃ f, env.call fetcher ((env.client fetcher).getMessages plan.sourceChatId
      plan.sourceMessageId) = .error f ∧ Refused fetcher f) ↔ ∃ e, (env.client fetcher).getMessages
        plan.sourceChatId plan.sourceMessageId = .error e ∧ e.exception.kind = .auth := call_refused
  rw [← hcall]
  constructor
  · rintro ⟨f, hf, hrefused⟩
    rcases Except.bind_eq_error.mp hf with hfetch | ⟨found, hfound, hf⟩
    · exact ⟨f, hfetch, hrefused⟩
    · cases found with
      | some src => cases hf
      | none =>
        cases hf
        obtain ⟨_, _, ⟨⟩⟩ := hrefused
  · rintro ⟨f, hcall, hrefused⟩
    exact ⟨f, Except.bind_eq_error.mpr (.inl hcall), hrefused⟩

theorem mediaFile_refused {src : SourceContent} (hne : fetcher ≠ self) :
    (∃ f, env.mediaFile self src fetcher = .error f ∧ Refused fetcher f) ↔
      ∃ media e, src.media = some media ∧ (env.client fetcher).downloadMedia src = .error e ∧
        e.exception.kind = .auth := by
  unfold mediaFile
  cases src.media with
  | none =>
    constructor
    · rintro ⟨f, ⟨⟩, -⟩
    · rintro ⟨media, e, ⟨⟩, -⟩
  | some media =>
    dsimp only
    rw [if_neg hne]
    have hcall : (∃ f, env.call fetcher ((env.client fetcher).downloadMedia src) = .error f ∧
        Refused fetcher f) ↔ ∃ e, (env.client fetcher).downloadMedia src = .error e ∧
          e.exception.kind = .auth := call_refused
    constructor
    · rintro ⟨f, hf, hrefused⟩
      rcases Except.bind_eq_error.mp hf with hf | ⟨data, -, hf⟩
      · obtain ⟨e, he, hkind⟩ := hcall.mp ⟨f, hf, hrefused⟩
        exact ⟨media, e, rfl, he, hkind⟩
      · cases data <;> cases hf
    · rintro ⟨_, e, -, he, hkind⟩
      obtain ⟨f, hf, hrefused⟩ := hcall.mpr ⟨e, he, hkind⟩
      exact ⟨f, Except.bind_eq_error.mpr (.inl hf), hrefused⟩

theorem copied_refused (hne : env.fetcherFor plan ≠ plan.accountId) :
    (∃ f, env.copied plan = .error f ∧ Refused (env.fetcherFor plan) f) ↔ env.FetchRefused plan := by
  unfold copied FetchRefused
  constructor
  · rintro ⟨f, hf, hrefused⟩
    rcases Except.bind_eq_error.mp hf with hf | ⟨src, hsrc, hf⟩
    · obtain ⟨e, he, hkind⟩ := fetchSource_refused.mp ⟨f, hf, hrefused⟩
      exact ⟨e, hkind, .inl he⟩
    · rcases Except.bind_eq_error.mp hf with hf | ⟨peer, hpeer, hf⟩
      · exact absurd (entity_fails f hf) (hrefused.not_raisedBy hne)
      · rcases Except.bind_eq_error.mp hf with hf | ⟨text, htext, hf⟩
        · exact absurd (transform_fails f hf) (hrefused.not_raisedBy hne)
        · rcases Except.bind_eq_error.mp hf with hf | ⟨parts, -, hf⟩
          · obtain ⟨media, e, hmedia, he, hkind⟩ := (mediaFile_refused hne).mp ⟨f, hf, hrefused⟩
            exact ⟨e, hkind, .inr ⟨src, media, peer, text, fetchSource_eq_ok.mp hsrc, hpeer, htext,
              hmedia, he⟩⟩
          · cases hf
  · rintro ⟨e, hkind, he | ⟨src, media, peer, text, hsrc, hpeer, htext, hmedia, he⟩⟩
    · obtain ⟨f, hf, hrefused⟩ := fetchSource_refused.mpr ⟨e, he, hkind⟩
      exact ⟨f, Except.bind_eq_error.mpr (.inl hf), hrefused⟩
    · obtain ⟨f, hf, hrefused⟩ : ∃ f, env.mediaFile plan.accountId src (env.fetcherFor plan) = .error f ∧
          Refused (env.fetcherFor plan) f := (mediaFile_refused hne).mpr ⟨media, e, hmedia, he, hkind⟩
      refine ⟨f, Except.bind_eq_error.mpr (.inr ⟨src, fetchSource_eq_ok.mpr hsrc, ?_⟩), hrefused⟩
      refine Except.bind_eq_error.mpr (.inr ⟨peer, hpeer, ?_⟩)
      refine Except.bind_eq_error.mpr (.inr ⟨text, htext, ?_⟩)
      exact Except.bind_eq_error.mpr (.inl hf)

/-- The sender is told of a refused session of the fetch account exactly if it was refused. -/
theorem exchange_refused (hne : env.fetcherFor plan ≠ plan.accountId) :
    (∃ f, env.exchange request plan = .error f ∧ Refused (env.fetcherFor plan) f) ↔
      Copies plan request ∧ env.FetchRefused plan := by
  by_cases hcopies : Copies plan request
  · rw [exchange_eq hcopies, ← copied_refused hne]
    constructor
    · rintro ⟨f, hf, hrefused⟩
      rcases Except.bind_eq_error.mp hf with hf | ⟨copy, -, hf⟩
      · exact ⟨hcopies, f, hf, hrefused⟩
      · exact absurd (sendsOn_fails f hf) (hrefused.not_raisedBy hne)
    · rintro ⟨-, f, hf, hrefused⟩
      exact ⟨f, Except.bind_eq_error.mpr (.inl hf), hrefused⟩
  · constructor
    · rintro ⟨f, hf, hrefused⟩
      exact absurd (exchange_fails hcopies f hf) (hrefused.not_raisedBy hne)
    · rintro ⟨hcopies', -⟩
      exact absurd hcopies' hcopies

theorem exchange_raisedBy : Fails (RaisedBy [env.fetcherFor plan, plan.accountId])
    (env.exchange request plan) := by
  have hself : ∀ f, RaisedBy [plan.accountId] f →
      RaisedBy [env.fetcherFor plan, plan.accountId] f := raisedBy_mono (by simp)
  by_cases hcopies : Copies plan request
  · rw [exchange_eq hcopies]
    exact .bind copied_fails fun _ => sendsOn_fails.mono hself
  · exact (exchange_fails hcopies).mono hself

def RefusedIn (env : Surroundings) (request : TransportRequest) (plan : DeliveryPlan)
    (accountId : AccountId) : Prop :=
  ∃ detail until_, env.outcome request plan = .error .auth detail until_ (some accountId)

theorem refusedIn_iff {accountId : AccountId} : env.RefusedIn request plan accountId ↔
    ∃ f, env.exchange request plan = .error f ∧ Refused accountId f := by
  unfold RefusedIn outcome
  cases env.exchange request plan with
  | ok ids =>
    constructor
    · rintro ⟨_, _, ⟨⟩⟩
    · rintro ⟨f, ⟨⟩, -⟩
  | error f =>
    cases f with
    | error kind detail until_ raisedBy =>
      constructor
      · rintro ⟨_, _, ⟨⟩⟩
        exact ⟨_, rfl, _, _, rfl⟩
      · rintro ⟨_, ⟨⟩, _, _, ⟨⟩⟩
        exact ⟨_, _, rfl⟩
    | exception detail =>
      constructor
      · rintro ⟨_, _, ⟨⟩⟩
      · rintro ⟨_, ⟨⟩, _, _, ⟨⟩⟩

theorem refused_of_outcome {detail : String} {until_ : Option Time} {raisedBy : Option AccountId}
    (h : env.outcome request plan = .error .auth detail until_ raisedBy) :
    env.RefusedIn request plan (env.fetcherFor plan) ∨ env.RefusedIn request plan plan.accountId := by
  have hraised : Fails (RaisedBy [env.fetcherFor plan, plan.accountId]) (env.exchange request plan) :=
    exchange_raisedBy
  have hout := h
  unfold outcome at h
  cases hx : env.exchange request plan with
  | ok ids =>
    rw [hx] at h
    cases h
  | error f =>
    rw [hx] at h
    have hby := hraised f hx
    cases f with
    | exception detail => cases h
    | error kind detail' until' by_ =>
      cases h
      cases raisedBy with
      | none => rcases hby with hkind | hkind <;> cases hkind
      | some a =>
        rcases List.mem_pair.mp hby with rfl | rfl
        · exact .inl ⟨_, _, hout⟩
        · exact .inr ⟨_, _, hout⟩

end Surroundings

/-! ## The sender's runner -/

/-- What a transport call of a running runner and the record of its result may do to the sender. -/
structure StopsOnlyItself (env : Surroundings) (plan : DeliveryPlan) (request : TransportRequest)
    (wk : Worker) (r' : Runner) (id : JobId) (db db' : Database) : Prop where
  halted : r'.halted = some (.error .authDead) → env.RefusedIn request plan plan.accountId
  failed : ∀ job job', db.deliveryJobs.get? id = some job → db'.deliveryJobs.get? id = some job' →
    job' ≠ job → job'.status = .failedPermanent → job'.lastErrorClass = some .authDead →
      env.RefusedIn request plan plan.accountId
  spared : ∀ kind detail until_ accountId, kind ∈ [TransportErrorKind.auth, .floodWait, .permission] →
    accountId ≠ plan.accountId → env.outcome request plan = .error kind detail until_ (some accountId) →
      r'.halted = none ∧
        (wk.observe (env.outcome request plan)).registry plan.accountId = wk.registry plan.accountId

section Recording

variable {env : Surroundings} {plan : DeliveryPlan} {request : TransportRequest} {targetIds : List ℤ}
  {policy : RetryPolicy} {attemptNo draw : ℤ} {clock : Time} {outcome : TransportOutcome}

theorem auth_of_haltOf (h : haltOf (request.result targetIds outcome) = some (.error .authDead)) :
    ∃ detail until_ raisedBy, outcome = .error .auth detail until_ raisedBy := by
  cases outcome with
  | returned ids => cases h
  | exception detail => cases h
  | error kind detail until_ raisedBy =>
    cases kind with
    | auth => exact ⟨_, _, _, rfl⟩
    | _ => cases h

theorem errorClass_of_retryable {result : DeliveryResult} (h : result.status = .retryable) :
    (resultFields policy attemptNo clock draw result).errorClass = result.errorClass := by
  unfold resultFields
  rw [h]
  dsimp only
  split
  · rfl
  · split <;> rfl

theorem auth_of_resultFields {fields : ResultFields}
    (h : resultFields policy attemptNo clock draw (request.result targetIds outcome) = fields)
    (hstatus : fields.newStatus = .failedPermanent) (herror : fields.errorClass = some .authDead) :
    ∃ detail until_ raisedBy, outcome = .error .auth detail until_ raisedBy := by
  subst h
  cases outcome with
  | returned ids => cases hstatus
  | exception detail => cases hstatus
  | error kind detail until_ raisedBy =>
    cases kind with
    | auth => exact ⟨_, _, _, rfl⟩
    | content => cases herror
    | permission => cases hstatus
    | resultUnknown => cases hstatus
    | floodWait =>
      rw [errorClass_of_retryable rfl] at herror
      cases herror
    | transient =>
      rw [errorClass_of_retryable rfl] at herror
      cases herror

variable {r : Runner} {d : RunnerDeps} {db : Database} {h : Holding} {result : DeliveryResult}
  {now : Time}
  {raises : Bool}

theorem halted_recordOutcome :
    (r.recordOutcome d db h result now clock draw raises).runner.halted =
      (haltOf result).or r.halted := by
  unfold Runner.recordOutcome
  dsimp only
  split <;> rfl

/-- The job of a recorded result is moved by it, or the result is stale. -/
theorem job_recordOutcome {job job' : DeliveryJob} (hjob : db.deliveryJobs.get? h.id = some job)
    (hjob' : (r.recordOutcome d db h result now clock draw raises).db.deliveryJobs.get? h.id =
      some job') :
    job' = job ∨ ∃ fields, resultFields d.retryPolicy h.attemptNo clock draw result = fields ∧
      job' = job.move fields.newStatus fields.toStatusFields now := by
  obtain ⟨_, ⟨db', hrecord, hs⟩ | ⟨-, hs⟩⟩ :=
    Runner.recordOutcome_cases d db r h result now clock draw raises
  · obtain ⟨_, _, _, -, -, -, rfl⟩ := Database.recordResult_eq_recorded hrecord
    have hmoved : (db.deliveryJobs.update h.id fun j => j.move
        (resultFields d.retryPolicy h.attemptNo clock draw result).newStatus
        (resultFields d.retryPolicy h.attemptNo clock draw result).toStatusFields now).get? h.id =
          some job' := by
      rwa [hs] at hjob'
    rw [Table.get?_update_self, hjob] at hmoved
    exact .inr ⟨_, rfl, (Option.some.inj hmoved).symm⟩
  · rw [hs, hjob] at hjob'
    exact .inl (Option.some.inj hjob').symm

theorem TransportOutcome.mark_of_ne {registry : LiveRegistry} {kind : TransportErrorKind}
    {detail : String}
    {until_ : Option Time} {accountId self : AccountId} (hne : self ≠ accountId) :
    (TransportOutcome.error kind detail until_ (some accountId)).mark registry self = registry self := by
  cases kind with
  | auth => exact LiveRegistry.modify_of_ne hne
  | floodWait =>
    cases until_ with
    | some until_ => exact LiveRegistry.modify_of_ne hne
    | none => rfl
  | _ => rfl

end Recording

open Surroundings in
/-- A call of a running runner, and the record of its result, affect the sender for its own sake
alone, if and only if the call does not copy a message for which the session of another fetch
account is refused. -/
theorem dead_account_stops_itself_iff (env : Surroundings) (d : RunnerDeps) (w : WorkerId)
    (acc : AccountId)
    (wk : Worker) (db db₁ : Database) (generation : ℤ) (h : Holding) (targetIds : List ℤ)
    (request : TransportRequest) (now clock : Time) (draw : ℤ) (raises : Bool) :
    (∀ e₁ e₂ : RunnerEffect,
      Runner.step d w acc db { generation, halted := none, pc := .calling h targetIds request }
        (.finish (env.outcome request h.plan)) = some e₁ →
      e₁.runner.step d w acc db₁ (.record now clock draw raises) = some e₂ →
        StopsOnlyItself env h.plan request wk e₂.runner h.id db₁ e₂.db) ↔
      ¬ (env.fetcherFor h.plan ≠ h.plan.accountId ∧ Copies h.plan request ∧
        env.FetchRefused h.plan) := by
  constructor
  · rintro hstops ⟨hne, hrefused⟩
    obtain ⟨detail, until_, hout⟩ := refusedIn_iff.mpr ((exchange_refused hne).mpr hrefused)
    have hhalted : haltOf (request.result targetIds (env.outcome request h.plan)) =
      some (.error .authDead) := by
      rw [hout]
      rfl
    obtain ⟨_, _, hself⟩ := (hstops _ _ rfl rfl).halted (by rw [halted_recordOutcome, hhalted]; rfl)
    rw [hout] at hself
    injection hself with _ _ _ hby
    exact hne (Option.some.inj hby)
  · rintro hnot e₁ e₂ ⟨⟩ ⟨⟩
    have hself : ∀ {detail until_ raisedBy}, env.outcome request h.plan =
      .error .auth detail until_ raisedBy →
        env.RefusedIn request h.plan h.plan.accountId := by
      intro detail until_ raisedBy hout
      rcases refused_of_outcome hout with hfetcher | hsender
      · by_cases hne : env.fetcherFor h.plan = h.plan.accountId
        · rwa [hne] at hfetcher
        · exact absurd ⟨hne, (exchange_refused hne).mp (refusedIn_iff.mp hfetcher)⟩ hnot
      · exact hsender
    constructor
    · intro hhalted
      rw [halted_recordOutcome, Option.or_none] at hhalted
      obtain ⟨_, _, _, hout⟩ := auth_of_haltOf hhalted
      exact hself hout
    · intro job job' hjob hjob' hmoved hstatus herror
      rcases job_recordOutcome hjob hjob' with rfl | ⟨fields, hfields, rfl⟩
      · exact absurd rfl hmoved
      · obtain ⟨_, _, _, hout⟩ := auth_of_resultFields hfields hstatus herror
        exact hself hout
    · intro kind detail until_ accountId hkind hne hout
      constructor
      · rw [halted_recordOutcome, Option.or_none, hout]
        rcases List.mem_cons.mp hkind with rfl | hkind
        · obtain ⟨_, _, hsender⟩ := hself hout
          rw [hout] at hsender
          injection hsender with _ _ _ hby
          exact absurd (Option.some.inj hby) hne
        · rcases List.mem_pair.mp hkind with rfl | rfl <;> rfl
      · rw [hout]
        exact TransportOutcome.mark_of_ne hne.symm

/-- A copy that account `A` sends of a message that account `F` reads. -/
def relayedPlan : DeliveryPlan where
  kind := .send
  ruleId := "r"
  ruleVersion := 1
  routeId := "r1"
  accountId := "A"
  sourceScope := "channel"
  sourceChatId := 5
  sourceMessageId := 3
  revision := 0
  targetChatId := 7
  targetTopicId := none
  mode := .copy
  payloadRef := none
  payloadHash := none
  requiresApproval := false
  fetchAccountId := some "F"

/-- All sessions work, but the one of account `F` is no longer authorized. -/
def revokedFetcher : Surroundings where
  now := 0
  client a := {
    selfId := none
    getMe := .ok 1
    getMessages := fun _ _ =>
      if a = "F" then .error { exception := .unauthorized } else .ok (some { text := some "hello" })
    downloadMedia := fun _ => .ok none
    sendMessage := fun _ _ _ => .ok 9
    sendFile := fun _ _ _ _ => .ok 9
    forwardMessages := fun _ _ _ => .ok [9]
    editMessage := fun _ _ _ _ => .ok ()
    deleteMessages := fun _ _ => .ok () }
  connected _ := true
  getCandidate _ := .error ""
  cloneTransform _ text := .ok { text := some text }
  sha256 := id

/-- Account `F`'s revoked session stops account `A` and fails its job for good. -/
theorem dead_fetcher_stops_sender : ¬ ∀ (env : Surroundings) (d : RunnerDeps) (w : WorkerId)
    (acc : AccountId)
    (wk : Worker) (db db₁ : Database) (generation : ℤ) (h : Holding) (targetIds : List ℤ)
    (request : TransportRequest) (now clock : Time) (draw : ℤ) (raises : Bool) (e₁ e₂ : RunnerEffect),
    Runner.step d w acc db { generation, halted := none, pc := .calling h targetIds request }
        (.finish (env.outcome request h.plan)) = some e₁ →
      e₁.runner.step d w acc db₁ (.record now clock draw raises) = some e₂ →
        StopsOnlyItself env h.plan request wk e₂.runner h.id db₁ e₂.db := by
  intro hall
  let job : DeliveryJob :=
    { jobFromPlan relayedPlan "t" "p" 0 with status := .sending, attemptCount := 1 }
  let db : Database := { Database.empty with deliveryJobs := Table.empty.insert job }
  let h : Holding := ⟨0, job, relayedPlan, { accountId := "A", generation := 1, sendState := .sendable }⟩
  have hout : revokedFetcher.outcome .send relayedPlan = .error .auth "" none (some "F") := by
    decide +kernel
  obtain ⟨_, _, hself⟩ :=
    (hall revokedFetcher (Worker.start {}).deps "w1" "A" (Worker.start {}) db db 1 h []
    .send 0 0 0 false _ _ rfl rfl).failed job
      (job.move .failedPermanent { errorClass := some .authDead } 0) rfl (by decide +kernel)
      (by decide +kernel) rfl rfl
  rw [hout] at hself
  injection hself with _ _ _ hby
  exact absurd (Option.some.inj hby) (by decide)

end TgPlatform
