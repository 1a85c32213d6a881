import NexusHub.Webhooks

/-!
# The row of a delivery

The queue tries a job until an attempt succeeds or as many were made as the job
is allowed, and each attempt writes the job's row. A failure sets the time of the
next attempt or clears it; a success leaves it as it is.
-/

namespace NexusHub

open WebhookProcessor (FetchResult markDelivered markFailed isLastAttempt deliverWebhook)

namespace WebhookProcessor.FetchResult

/-- `response.ok`, with a body that could be read. -/
def Ok : FetchResult → Prop
  | answered status _ => 200 ≤ status ∧ status < 300
  | failed _ | unread .. => False

instance : (result : FetchResult) → Decidable result.Ok
  | answered .. => inferInstanceAs (Decidable (_ ∧ _))
  | failed _ | unread .. => isFalse not_false

end WebhookProcessor.FetchResult

/-! ## A job in the queue -/

/-- `results` are the answers to the attempts made so far, oldest first. -/
structure DeliveryRun where
  deliveries : List WebhookDelivery
  results : List FetchResult
  finished : Bool

inductive DeliveryAction where
  | attempt (now : Nat) (result : FetchResult)
  /-- The table as others leave it, who write to rows of their own. -/
  | others (deliveries : List WebhookDelivery)

/-- The processor takes a job to carry all three. -/
def WebhookJob.Complete (job : WebhookJob) : Prop :=
  job.deliveryId.isSome ∧ job.url.isSome ∧ job.secret.isSome

def WebhookJob.row (job : WebhookJob) (deliveries : List WebhookDelivery) : Option WebhookDelivery :=
  job.deliveryId.bind fun n => deliveries[n]?

/-- The row that is made before the job is queued. -/
def WebhookJob.newRow (job : WebhookJob) (endpointId : String) : WebhookDelivery :=
  { endpointId, event := job.event, payload := job.payload, status := .pending }

namespace DeliveryRun

/-- A job that throws is retried until `limit` attempts were made. -/
def step (job : WebhookJob) (limit : Nat) (c : DeliveryRun) : DeliveryAction → DeliveryRun
  | .attempt now result =>
    if c.finished then c
    else
      let a := deliverWebhook job c.results.length limit now result c.deliveries
      ⟨a.deliveries, c.results ++ [result], a.outcome.isOk || limit ≤ c.results.length + 1⟩
  | .others deliveries => if job.row deliveries = job.row c.deliveries then { c with deliveries } else c

/-- A job as it is queued. -/
def start (deliveries : List WebhookDelivery) : DeliveryRun := ⟨deliveries, [], false⟩

end DeliveryRun

def WebhookDeliveryStatus.Terminal (v : WebhookDeliveryStatus) : Prop := v = delivered ∨ v = failed

/-- The row after these attempts of at most `limit`. -/
structure Lifecycle (limit : Nat) (results : List FetchResult) (d : WebhookDelivery) : Prop where
  attempts : d.attempts = results.length
  delivered : d.status = .delivered ↔ ∃ r ∈ results.getLast?, r.Ok
  deliveredAt : d.deliveredAt.isSome ↔ ∃ r ∈ results.getLast?, r.Ok
  failed : d.status = .failed ↔ results.length = limit ∧ ∀ r ∈ results, ¬ r.Ok
  retrying : d.status = .retrying ↔
    results ≠ [] ∧ ¬ (∃ r ∈ results.getLast?, r.Ok) ∧ ¬ (results.length = limit ∧ ∀ r ∈ results, ¬ r.Ok)
  nextRetry : d.nextRetryAt.isSome ↔ d.status = .retrying

/-- In every state of the run the row is as its attempts say, and what is over stays over. -/
structure LifecycleHolds (job : WebhookJob) (limit : Nat) (c : DeliveryRun) (as : List DeliveryAction) : Prop where
  rows : ∀ front, front <+: as → ∃ d, job.row (run (DeliveryRun.step job limit) c front).deliveries = some d ∧
    Lifecycle limit (run (DeliveryRun.step job limit) c front).results d
  final : ∀ front back, front ++ back <+: as → ∀ d,
    job.row (run (DeliveryRun.step job limit) c front).deliveries = some d → d.status.Terminal →
    ∃ d', job.row (run (DeliveryRun.step job limit) c (front ++ back)).deliveries = some d' ∧ d'.status = d.status

/-- No attempt after a failed one is answered with success. -/
def DeliveryRun.Clean (c : DeliveryRun) : DeliveryAction → Prop
  | .attempt _ result => c.finished = false → result.Ok → c.results = []
  | .others _ => True

instance (c : DeliveryRun) : (a : DeliveryAction) → Decidable (c.Clean a)
  | .attempt _ result => decidable_of_iff (c.finished = false → result.Ok → c.results.isEmpty)
      (by simp [DeliveryRun.Clean])
  | .others _ => isTrue trivial

/-! ## One attempt -/

section
variable {job : WebhookJob} {limit : Nat} {ds : List WebhookDelivery} {d : WebhookDelivery}

/-- An attempt marks the row delivered or failed. -/
theorem attempt_row (hj : job.Complete) (hd : job.row ds = some d) (k limit now : Nat) (result : FetchResult) :
    let a := deliverWebhook job k limit now result ds
    (result.Ok ∧ a.outcome.isOk = true ∧ ∃ status body,
      job.row a.deliveries = some (markDelivered k now status body d)) ∨
    (¬ result.Ok ∧ a.outcome.isOk = false ∧ ∃ code body error,
      job.row a.deliveries = some (markFailed k limit now code body error d)) := by
  obtain ⟨id, url, secret, event, payload⟩ := job
  obtain ⟨hid, hurl, hsecret⟩ := hj
  obtain ⟨n, rfl⟩ := Option.isSome_iff_exists.mp hid
  obtain ⟨url, rfl⟩ := Option.isSome_iff_exists.mp hurl
  obtain ⟨secret, rfl⟩ := Option.isSome_iff_exists.mp hsecret
  have hn : ds[n]? = some d := hd
  have hset (d' : WebhookDelivery) : (ds.set n d')[n]? = some d' :=
    List.getElem?_set_self (List.getElem?_eq_some_iff.mp hn).1
  have hfail (post code body error) :
      WebhookProcessor.recordFailure ⟨some n, some url, some secret, event, payload⟩ k limit now ds post code body
        error = ⟨post, ds.set n (markFailed k limit now code body error d), .error (.failed error)⟩ := by
    simp only [WebhookProcessor.recordFailure, WebhookProcessor.update, hn]
  cases result with
  | failed error =>
    refine .inr ⟨not_false, ?_⟩
    simp only [deliverWebhook, Option.isSome_some, if_true, hfail]
    exact ⟨rfl, _, _, _, hset _⟩
  | unread status error =>
    refine .inr ⟨not_false, ?_⟩
    simp only [deliverWebhook, Option.isSome_some, if_true, hfail]
    exact ⟨rfl, _, _, _, hset _⟩
  | answered status body =>
    by_cases hok : 200 ≤ status ∧ status < 300
    · refine .inl ⟨hok, ?_⟩
      simp only [deliverWebhook, Option.isSome_some, if_true, if_pos hok, WebhookProcessor.update, hn]
      exact ⟨rfl, _, _, hset _⟩
    · refine .inr ⟨hok, ?_⟩
      simp only [deliverWebhook, Option.isSome_some, if_true, if_neg hok, hfail]
      exact ⟨rfl, _, _, _, hset _⟩

/-! ## What is over stays over -/

namespace DeliveryRun

variable {c : DeliveryRun}

theorem step_finished (h : c.finished = true) (a : DeliveryAction) :
    (step job limit c a).finished = true ∧ job.row (step job limit c a).deliveries = job.row c.deliveries := by
  cases a with
  | attempt =>
    simp only [step, if_pos h]
    exact ⟨h, trivial⟩
  | others deliveries =>
    simp only [step]
    split
    · exact ⟨h, ‹_›⟩
    · exact ⟨h, rfl⟩

theorem run_finished (h : c.finished = true) (as : List DeliveryAction) :
    job.row (run (step job limit) c as).deliveries = job.row c.deliveries := by
  refine (run_inv (fun c' : DeliveryRun => c'.finished = true ∧ job.row c'.deliveries = job.row c.deliveries)
    (fun c' a hc => ?_) as ⟨h, rfl⟩).2
  exact ⟨(step_finished hc.1 a).1, (step_finished hc.1 a).2.trans hc.2⟩

/-- A row in a final state belongs to a finished job. -/
def Ends (job : WebhookJob) (c : DeliveryRun) : Prop :=
  ∃ d, job.row c.deliveries = some d ∧ (d.status.Terminal → c.finished = true)

theorem Ends.step (hj : job.Complete) (h : c.Ends job) (a : DeliveryAction) :
    (DeliveryRun.step job limit c a).Ends job := by
  obtain ⟨d, hd, hend⟩ := h
  cases a with
  | others deliveries =>
    simp only [DeliveryRun.step]
    split
    · rename_i heq
      exact ⟨d, heq.trans hd, hend⟩
    · exact ⟨d, hd, hend⟩
  | attempt now result =>
    cases hf : c.finished with
    | true =>
      exact ⟨d, (step_finished hf _).2.trans hd, fun _ => (step_finished hf _).1⟩
    | false =>
      simp only [DeliveryRun.step, hf, Bool.false_eq_true, if_false]
      rcases attempt_row hj hd c.results.length limit now result with
        ⟨-, ho, status, body, hrow⟩ | ⟨-, -, code, body, error, hrow⟩
      · exact ⟨_, hrow, fun _ => by simp only [ho, Bool.true_or]⟩
      · refine ⟨_, hrow, fun ht => ?_⟩
        by_cases hlast : isLastAttempt c.results.length limit = true
        · exact Bool.or_eq_true_iff.mpr (.inr hlast)
        · rcases ht with ht | ht
          · simp only [markFailed, if_neg hlast] at ht; cases ht
          · simp only [markFailed, if_neg hlast] at ht; cases ht

/-! ## The row along a run -/

/-- The row is as the attempts say; an unfinished job has failed so far and may go on. -/
structure Tells (job : WebhookJob) (limit : Nat) (d : WebhookDelivery) (c : DeliveryRun) : Prop where
  row : job.row c.deliveries = some d
  lifecycle : Lifecycle limit c.results d
  failing : c.finished = false → (∀ r ∈ c.results, ¬ r.Ok) ∧ c.results.length < limit

theorem Tells.not_ok (h : c.Tells job limit d) (hf : c.finished = false) : ¬ ∃ r ∈ c.results.getLast?, r.Ok :=
  fun ⟨r, hr, hok⟩ => (h.failing hf).1 r (List.mem_of_getLast? hr) hok

/-- After a failure and before the next attempt the row has a retry time. -/
theorem Tells.retrying (h : c.Tells job limit d) (hf : c.finished = false) (hne : c.results ≠ []) :
    d.nextRetryAt.isSome :=
  h.lifecycle.nextRetry.mpr (h.lifecycle.retrying.mpr
    ⟨hne, h.not_ok hf, fun hall => absurd hall.1 (Nat.ne_of_lt (h.failing hf).2)⟩)

theorem Tells.fresh (h : c.Tells job limit d) (hr : c.results = []) : d.nextRetryAt = none := by
  rw [← Option.not_isSome_iff_eq_none, h.lifecycle.nextRetry, h.lifecycle.retrying]
  exact fun h => h.1 hr

theorem lifecycle_delivered {rs : List FetchResult} {result : FetchResult} (hok : result.Ok)
    (hnext : d.nextRetryAt = none) (now status : Nat) (body : String) :
    Lifecycle limit (rs ++ [result]) (markDelivered rs.length now status body d) := by
  have hlast : ∃ r ∈ (rs ++ [result]).getLast?, r.Ok := ⟨result, by simp, hok⟩
  have hsome : ¬ ∀ r ∈ rs ++ [result], ¬ r.Ok := fun h => h result (by simp) hok
  refine ⟨by simp [markDelivered], ?_, ?_, ?_, ?_, ?_⟩
  · exact iff_of_true rfl hlast
  · exact iff_of_true rfl hlast
  · exact iff_of_false nofun fun h => hsome h.2
  · exact iff_of_false nofun fun h => h.2.1 hlast
  · exact iff_of_false (by simp [markDelivered, hnext]) nofun

theorem lifecycle_failed {rs : List FetchResult} {result : FetchResult} (hfail : ∀ r ∈ rs ++ [result], ¬ r.Ok)
    (hle : rs.length < limit) (hd : d.deliveredAt = none) (now : Nat) (code : Option Nat) (body : Option String)
    (error : String) :
    Lifecycle limit (rs ++ [result]) (markFailed rs.length limit now code body error d) := by
  have hlast : ¬ ∃ r ∈ (rs ++ [result]).getLast?, r.Ok :=
    fun ⟨r, hr, hok⟩ => hfail r (List.mem_of_getLast? hr) hok
  have hlen : (rs ++ [result]).length = limit ↔ isLastAttempt rs.length limit = true := by
    simp only [isLastAttempt, decide_eq_true_eq, List.length_append, List.length_singleton]
    omega
  by_cases h : isLastAttempt rs.length limit = true
  · refine ⟨by simp [markFailed], ?_, ?_, ?_, ?_, ?_⟩
    · exact iff_of_false (by simp [markFailed, h]) hlast
    · exact iff_of_false (by simp [markFailed, hd]) hlast
    · exact iff_of_true (by simp [markFailed, h]) ⟨hlen.mpr h, hfail⟩
    · exact iff_of_false (by simp [markFailed, h]) fun hr => hr.2.2 ⟨hlen.mpr h, hfail⟩
    · simp [markFailed, h]
  · have hnot : ¬ ((rs ++ [result]).length = limit ∧ ∀ r ∈ rs ++ [result], ¬ r.Ok) :=
      fun hall => h (hlen.mp hall.1)
    refine ⟨by simp [markFailed], ?_, ?_, ?_, ?_, ?_⟩
    · exact iff_of_false (by simp [markFailed, h]) hlast
    · exact iff_of_false (by simp [markFailed, hd]) hlast
    · exact iff_of_false (by simp [markFailed, h]) hnot
    · exact iff_of_true (by simp [markFailed, h]) ⟨by simp, hlast, hnot⟩
    · simp [markFailed, h]

theorem Tells.step (hj : job.Complete) {a : DeliveryAction} (hc : c.Clean a) (h : c.Tells job limit d) :
    ∃ d', (DeliveryRun.step job limit c a).Tells job limit d' := by
  cases a with
  | others deliveries =>
    simp only [DeliveryRun.step]
    split
    · rename_i heq
      exact ⟨d, heq.trans h.row, h.lifecycle, h.failing⟩
    · exact ⟨d, h⟩
  | attempt now result =>
    cases hf : c.finished with
    | true => exact ⟨d, by simp only [DeliveryRun.step, hf, if_true]; exact h⟩
    | false =>
      obtain ⟨hfail, hlen⟩ := h.failing hf
      simp only [DeliveryRun.step, hf, Bool.false_eq_true, if_false]
      rcases attempt_row hj h.row c.results.length limit now result with
        ⟨hok, ho, status, body, hrow⟩ | ⟨hok, ho, code, body, error, hrow⟩
      · refine ⟨_, hrow, lifecycle_delivered hok (h.fresh (hc hf hok)) _ _ _, fun hfin => ?_⟩
        simp only [ho, Bool.true_or, Bool.true_eq_false] at hfin
      · have hall : ∀ r ∈ c.results ++ [result], ¬ r.Ok := by
          intro r hr
          rcases List.mem_append.mp hr with hr | hr
          · exact hfail r hr
          · rw [List.mem_singleton.mp hr]; exact hok
        have hd : d.deliveredAt = none := by
          rw [← Option.not_isSome_iff_eq_none, h.lifecycle.deliveredAt]
          exact h.not_ok hf
        refine ⟨_, hrow, lifecycle_failed hall hlen hd _ _ _ _, fun hfin => ⟨hall, ?_⟩⟩
        simp only [ho, Bool.false_or, decide_eq_false_iff_not] at hfin
        simp only [List.length_append, List.length_singleton]
        omega

/-- A success after a failure leaves the retry time in the delivered row. -/
theorem Tells.stale (hj : job.Complete) {a : DeliveryAction} (hc : ¬ c.Clean a) (h : c.Tells job limit d) :
    ¬ ∃ d', job.row (DeliveryRun.step job limit c a).deliveries = some d' ∧
      Lifecycle limit (DeliveryRun.step job limit c a).results d' := by
  cases a with
  | others => exact absurd trivial hc
  | attempt now result =>
    simp only [Clean, Classical.not_imp] at hc
    obtain ⟨hf, hok, hne⟩ := hc
    simp only [DeliveryRun.step, hf, Bool.false_eq_true, if_false]
    rintro ⟨d', hrow', hlife⟩
    rcases attempt_row hj h.row c.results.length limit now result with
      ⟨-, -, status, body, hrow⟩ | ⟨hnot, -⟩
    · obtain rfl := Option.some.inj (hrow.symm.trans hrow')
      have hretry := hlife.nextRetry.mp (h.retrying hf hne)
      cases hretry
    · exact hnot hok

end DeliveryRun

end

/-- The row of a job follows its attempts exactly if no attempt after a failed one
succeeds: a success does not clear the time of the retry that it was. -/
theorem lifecycle_iff_clean {limit : Nat} (hlimit : 1 ≤ limit) {job : WebhookJob} (hj : job.Complete)
    {deliveries : List WebhookDelivery} {endpointId : String}
    (hrow : job.row deliveries = some (job.newRow endpointId)) (as : List DeliveryAction) :
    LifecycleHolds job limit (.start deliveries) as ↔
      Meets (DeliveryRun.step job limit) DeliveryRun.Clean (.start deliveries) as := by
  have hstart : (DeliveryRun.start deliveries).Tells job limit (job.newRow endpointId) := by
    refine ⟨hrow, ⟨rfl, ?_, ?_, ?_, ?_, ?_⟩, fun _ => ⟨nofun, hlimit⟩⟩
    · exact iff_of_false nofun nofun
    · exact iff_of_false nofun nofun
    · exact iff_of_false nofun fun h => absurd h.1 (Nat.ne_of_lt hlimit)
    · exact iff_of_false nofun fun h => h.1 rfl
    · exact iff_of_false nofun nofun
  have hiff := meets_iff_along (P := DeliveryRun.Clean)
    (fun c => ∃ d, c.Tells job limit d)
    (fun c => ∃ d, job.row c.deliveries = some d ∧ Lifecycle limit c.results d)
    (fun c ⟨d, h⟩ => ⟨d, h.row, h.lifecycle⟩) (fun c a hc ⟨d, h⟩ => h.step hj hc)
    (fun c a ⟨d, h⟩ hc => h.stale hj hc) as ⟨_, hstart⟩
  refine ⟨fun h => hiff.mpr h.rows, fun h => ⟨hiff.mp h, fun front back _ d hd hterm => ?_⟩⟩
  have hends : (run (DeliveryRun.step job limit) (.start deliveries) front).Ends job :=
    run_inv (DeliveryRun.Ends job) (fun c a hc => hc.step hj a) front
      ⟨_, hrow, fun h => by rcases h with h | h <;> cases h⟩
  obtain ⟨d₀, hd₀, hfin⟩ := hends
  obtain rfl : d₀ = d := Option.some.inj (hd₀.symm.trans hd)
  rw [run_append]
  exact ⟨d₀, (DeliveryRun.run_finished (hfin hterm) back).trans hd, rfl⟩

/-- A job with the row that its producer made for it. -/
def sampleDeliveryJob : WebhookJob := ⟨some 0, some "https://hook", some "secret", .escrowFunded, .other "{}"⟩

def sampleDeliveries : List WebhookDelivery :=
  [{ endpointId := "endpoint", event := .escrowFunded, payload := .other "{}", status := .pending }]

theorem sample_lifecycle : LifecycleHolds sampleDeliveryJob 2 (.start sampleDeliveries)
    [.attempt 0 (.failed "timeout"), .others sampleDeliveries, .attempt 9 (.answered 500 ""),
      .attempt 10 (.answered 200 "")] :=
  (lifecycle_iff_clean (by decide) ⟨rfl, rfl, rfl⟩ (show _ = some (sampleDeliveryJob.newRow "endpoint") from rfl)
    _).mpr (by decide)

/-- Delivered at the second attempt, with the time of the second attempt still set. -/
theorem retry_time_left : ¬ ∀ (limit : Nat) (job : WebhookJob) (deliveries : List WebhookDelivery)
    (endpointId : String) (as : List DeliveryAction), 1 ≤ limit → job.Complete →
    job.row deliveries = some (job.newRow endpointId) → LifecycleHolds job limit (.start deliveries) as := by
  intro h
  obtain ⟨d, hd, hlife⟩ := (h 5 sampleDeliveryJob sampleDeliveries "endpoint" [.attempt 0 (.answered 500 ""),
    .attempt 10000 (.answered 200 "")] (by decide) ⟨rfl, rfl, rfl⟩ rfl).rows _ (List.prefix_refl _)
  cases hd
  cases hlife.nextRetry.mp rfl

end NexusHub
