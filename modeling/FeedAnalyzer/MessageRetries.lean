import Mathlib.Algebra.Ring.Int.Defs
import Mathlib.Algebra.Order.BigOperators.Group.List

/-!
# Retries of the message client

`_process_message` runs the callback and acknowledges; a poison message is
dead-lettered, and any other exception publishes a copy with a greater retry count and
acknowledges the original, until the count has reached `max_retries`.

The model is a broker with any number of deliveries at once, each at one of the `await`s
of `_process_message`, where it may be cut off or fail.  No copy disappears without a
trace (`Conserved`), and as long as no delivery is lost, what a message can still cost
is bounded (`Budgeted`).
-/

namespace Messaging

open List

/-- The values of headers: how an integer is written and read. -/
structure HeaderCodec (V : Type) where
  ofInt : Int → V
  toInt : V → Option Int
  toInt_ofInt : ∀ n, toInt (ofInt n) = some n

structure Message (V : Type) where
  body : String
  contentType : Option String
  messageId : Option String
  correlationId : Option String
  headers : List (String × V)

def retryCountHeader : String := "x-retry-count"

section Headers

variable {V : Type}

/-- `_header_int`: absent or unreadable counts as zero. -/
def headerInt (codec : HeaderCodec V) (headers : List (String × V)) (key : String) : Int :=
  match headers.lookup key with
  | none => 0
  | some value => (codec.toInt value).getD 0

/-- `headers[key] = value`. -/
def setHeader (key : String) (value : V) (headers : List (String × V)) : List (String × V) :=
  (key, value) :: headers.filter (fun header => header.1 ≠ key)

theorem headerInt_setHeader (codec : HeaderCodec V) (headers : List (String × V)) (key : String)
    (n : Int) : headerInt codec (setHeader key (codec.ofInt n) headers) key = n := by
  simp [headerInt, setHeader, codec.toInt_ofInt]

/-- The message that `publish` sends. -/
def publishedMessage (body messageId correlationId : String) (schemaVersion : V) : Message V where
  body := body
  contentType := some "application/json"
  messageId := some messageId
  correlationId := some correlationId
  headers := [("schema_version", schemaVersion)]

/-- The copy that `_republish_for_retry` sends. -/
def retryMessage (codec : HeaderCodec V) (message : Message V) (nextRetryCount : Int)
    (fresh : String) : Message V :=
  { message with
      messageId := some (message.messageId.getD fresh)
      headers := setHeader retryCountHeader (codec.ofInt nextRetryCount) message.headers }

end Headers

/-- The queues that the services consume. -/
inductive OwnedQueue where
  | priceSamples | samplePredictions | intradayRequests | intradayPrices | articles | events
  | predictions | priceRequests | prices | scored | notifiedPredictions | notifiedScored
  deriving DecidableEq

namespace OwnedQueue

def name : OwnedQueue → String
  | .priceSamples => "verification.price-samples"
  | .samplePredictions => "verification.sample-predictions"
  | .intradayRequests => "market-data.intraday-requests"
  | .intradayPrices => "verification.intraday-prices"
  | .articles => "cleansing.articles"
  | .events => "prediction.events"
  | .predictions => "verification.predictions"
  | .priceRequests => "market-data.price-requests"
  | .prices => "verification.prices"
  | .scored => "credibility.scored"
  | .notifiedPredictions => "notification.predictions"
  | .notifiedScored => "notification.scored"

/-- `x-dead-letter-routing-key`. -/
def deadLetterRoutingKey : OwnedQueue → String
  | .priceSamples => "verification.price-samples.failed"
  | .samplePredictions => "verification.sample-predictions.failed"
  | .intradayRequests => "intraday.requested"
  | .intradayPrices => "intraday.observed"
  | .articles => "article.ingested"
  | .events => "event.detected"
  | .predictions => "prediction.made"
  | .priceRequests => "price.requested"
  | .prices => "price.observed"
  | .scored => "prediction.scored"
  | .notifiedPredictions => "prediction.made"
  | .notifiedScored => "prediction.scored"

def all : List OwnedQueue :=
  [.priceSamples, .samplePredictions, .intradayRequests, .intradayPrices, .articles, .events,
    .predictions, .priceRequests, .prices, .scored, .notifiedPredictions, .notifiedScored]

/-- The bindings of `feed.dlx`. -/
def deadLetterBindings : List (String × String) :=
  all.map fun q => (q.deadLetterRoutingKey, q.name ++ ".dlq")

/-- Where a message that the queue rejects goes. -/
def deadLetterQueues (q : OwnedQueue) : List String :=
  (deadLetterBindings.filter fun binding => binding.1 = q.deadLetterRoutingKey).map Prod.snd

theorem dlq_mem_deadLetterQueues (q : OwnedQueue) : q.name ++ ".dlq" ∈ q.deadLetterQueues := by
  have hall : q ∈ all := by
    cases q <;> decide
  refine mem_map.mpr ⟨(q.deadLetterRoutingKey, q.name ++ ".dlq"), ?_, rfl⟩
  exact mem_filter.mpr ⟨mem_map.mpr ⟨q, hall, rfl⟩, by simp⟩

end OwnedQueue

/-- `origin` is the number of the copy that was published, `parent` that of the copy it is a
retry of. -/
structure Copy (V : Type) where
  origin : Nat
  parent : Option Nat
  message : Message V

/-- Where a delivery is in `_process_message`. -/
inductive Phase where
  | received
  | republishing
  | acking
  | nacking
  | ended
  deriving DecidableEq

/-- Neither the callback nor a retry is still to come. -/
def Phase.spent : Phase → Bool
  | .received => false
  | .republishing => false
  | _ => true

/-- A delivery of the copy with this number. -/
structure Delivery where
  serial : Nat
  unacked : Bool
  phase : Phase

/-- All copies, the queue, the deliveries and, by origin, the callbacks run, those that
returned, and the dead letters. -/
structure Broker (V : Type) where
  copies : List (Copy V) := []
  queue : List Nat := []
  deliveries : List Delivery := []
  ran : List Nat := []
  handled : List Nat := []
  deadLetters : List (String × Nat) := []

/-- How a callback ends. -/
inductive Outcome where
  | success
  | poison
  | otherException
  deriving DecidableEq

/-- Confirmed, or raised before or after the broker has got the message. -/
inductive Publish where
  | confirmed
  | lost
  | unconfirmed
  deriving DecidableEq

/-- An acknowledgement may get lost, a delivery may be cut off anywhere, and its connection
may be lost. -/
inductive Act (V : Type) where
  | publish (body messageId correlationId : String) (schemaVersion : V)
  | deliver (place : Nat)
  | callback (delivery : Nat) (outcome : Outcome)
  | republish (delivery : Nat) (fresh : String) (result : Publish)
  | ack (delivery : Nat) (reached : Bool)
  | nack (delivery : Nat) (reached : Bool)
  | cancel (delivery : Nat)
  | lose (delivery : Nat)

/-- No crash, and no publish that fails. -/
def Act.calm {V : Type} : Act V → Bool
  | .republish _ _ result => result == .confirmed
  | .cancel _ => false
  | .lose _ => false
  | _ => true

structure RabbitMQClient (V : Type) where
  codec : HeaderCodec V
  queue : OwnedQueue
  maxRetries : Int := 3

variable {i serial place : Nat} {phase : Phase} {d d' : Delivery}

namespace Broker

variable {V : Type}

/-- A copy enters the queue. -/
def enqueue (s : Broker V) (copy : Copy V) : Broker V :=
  { s with copies := s.copies ++ [copy], queue := s.queue ++ [s.copies.length] }

/-- A delivery is replaced. -/
def setDelivery (s : Broker V) (i : Nat) (d : Delivery) : Broker V :=
  { s with deliveries := s.deliveries.set i d }

/-- A delivery that is at some `await`, and its copy. -/
def at? (s : Broker V) (i : Nat) (phase : Phase) : Option (Delivery × Copy V) :=
  match s.deliveries[i]? with
  | none => none
  | some d =>
    if d.phase = phase then (s.copies[d.serial]?).map fun copy => (d, copy) else none

theorem at?_eq_some {s : Broker V} {copy : Copy V} (h : s.at? i phase = some (d, copy)) :
    s.deliveries[i]? = some d ∧ d.phase = phase ∧ s.copies[d.serial]? = some copy := by
  unfold at? at h
  cases hd : s.deliveries[i]? with
  | none => simp [hd] at h
  | some d' =>
    simp only [hd] at h
    split at h
    · next hphase =>
      obtain ⟨copy', hcopy, heq⟩ := Option.map_eq_some_iff.mp h
      obtain ⟨rfl, rfl⟩ := Prod.mk.inj heq
      exact ⟨rfl, hphase, hcopy⟩
    · cases h

/-- An event for a delivery that is not at that `await` does nothing. -/
theorem at?_elim {P : Broker V → Prop} {s : Broker V} (hs : P s)
    {next : Delivery → Copy V → Broker V}
    (hnext : ∀ d copy, s.deliveries[i]? = some d → d.phase = phase →
      s.copies[d.serial]? = some copy → P (next d copy)) :
    P (match s.at? i phase with
      | none => s
      | some (d, copy) => next d copy) := by
  cases hat : s.at? i phase with
  | none => exact hs
  | some found =>
    obtain ⟨hget, hphase, hcopy⟩ := at?_eq_some hat
    exact hnext found.1 found.2 hget hphase hcopy

end Broker

namespace RabbitMQClient

variable {V : Type} (client : RabbitMQClient V)

def retryCount (message : Message V) : Int :=
  headerInt client.codec message.headers retryCountHeader

/-- The callback has ended: what `_process_message` awaits next. -/
def afterCallback (message : Message V) : Outcome → Phase
  | .success => .acking
  | .poison => .nacking
  | .otherException =>
    if client.maxRetries ≤ client.retryCount message then .nacking else .republishing

def retryOf (serial : Nat) (copy : Copy V) (fresh : String) : Copy V where
  origin := copy.origin
  parent := some serial
  message := retryMessage client.codec copy.message (client.retryCount copy.message + 1) fresh

/-- One event; one that does not apply does nothing. -/
def step (s : Broker V) : Act V → Broker V
  | .publish body messageId correlationId schemaVersion =>
    s.enqueue ⟨s.copies.length, none, publishedMessage body messageId correlationId schemaVersion⟩
  | .deliver place =>
    match s.queue[place]? with
    | none => s
    | some serial =>
      { s with
          queue := s.queue.eraseIdx place
          deliveries := s.deliveries ++ [⟨serial, true, .received⟩] }
  | .callback i outcome =>
    match s.at? i .received with
    | none => s
    | some (d, copy) =>
      { s with
          ran := s.ran ++ [copy.origin]
          handled := s.handled ++ if outcome = .success then [copy.origin] else []
        : Broker V }.setDelivery i { d with phase := client.afterCallback copy.message outcome }
  | .republish i fresh result =>
    match s.at? i .republishing with
    | none => s
    | some (d, copy) =>
      match result with
      | .confirmed =>
        (s.enqueue (client.retryOf d.serial copy fresh)).setDelivery i { d with phase := .acking }
      | .lost => s.setDelivery i { d with phase := .ended }
      | .unconfirmed =>
        (s.enqueue (client.retryOf d.serial copy fresh)).setDelivery i { d with phase := .ended }
  | .ack i reached =>
    match s.at? i .acking with
    | none => s
    | some (d, _) => s.setDelivery i { d with unacked := d.unacked && !reached, phase := .ended }
  | .nack i reached =>
    match s.at? i .nacking with
    | none => s
    | some (d, copy) =>
      if d.unacked && reached then
        { s with
            deadLetters := s.deadLetters ++
              client.queue.deadLetterQueues.map fun q => (q, copy.origin)
          : Broker V }.setDelivery i { d with unacked := false, phase := .ended }
      else s.setDelivery i { d with phase := .ended }
  | .cancel i =>
    match s.deliveries[i]? with
    | none => s
    | some d => s.setDelivery i { d with phase := .ended }
  | .lose i =>
    match s.deliveries[i]? with
    | none => s
    | some d =>
      if d.unacked then
        { s with queue := s.queue ++ [d.serial] : Broker V }.setDelivery i
          { d with unacked := false }
      else s

def run (acts : List (Act V)) : Broker V :=
  acts.foldl client.step {}

end RabbitMQClient

namespace Broker

variable {V : Type}

/-- A retry of the copy has been published. -/
def HasRetry (s : Broker V) (serial : Nat) : Prop :=
  ∃ copy ∈ s.copies, copy.parent = some serial

/-- The message, or a retry of it, is queued, unacknowledged, handled or dead-lettered. -/
def Safe (s : Broker V) (origin : Nat) : Prop :=
  (∃ serial ∈ s.queue, ∃ copy, s.copies[serial]? = some copy ∧ copy.origin = origin) ∨
  (∃ d ∈ s.deliveries, d.unacked = true ∧
    ∃ copy, s.copies[d.serial]? = some copy ∧ copy.origin = origin) ∨
  origin ∈ s.handled ∨ ∃ q, (q, origin) ∈ s.deadLetters

/-- Where a copy is, or what has become of it. -/
def Accounted (s : Broker V) (serial origin : Nat) : Prop :=
  serial ∈ s.queue ∨ (∃ d ∈ s.deliveries, d.serial = serial ∧ d.unacked = true) ∨
  origin ∈ s.handled ∨ (∃ q, (q, origin) ∈ s.deadLetters) ∨ s.HasRetry serial

/-- **Every copy is accounted for.**  One about to be acknowledged has been handled or has a
retry, which comes after it and is of the same message. -/
structure Conserved (s : Broker V) : Prop where
  queued : ∀ serial ∈ s.queue, serial < s.copies.length
  delivered : ∀ d ∈ s.deliveries, d.serial < s.copies.length
  accounted : ∀ (serial : Nat) (copy : Copy V), s.copies[serial]? = some copy →
    s.Accounted serial copy.origin
  justified : ∀ d ∈ s.deliveries, d.phase = .acking →
    ∀ copy : Copy V, s.copies[d.serial]? = some copy → copy.origin ∈ s.handled ∨ s.HasRetry d.serial
  retries : ∀ (serial : Nat) (copy : Copy V), s.copies[serial]? = some copy →
    ∀ parent, copy.parent = some parent →
      parent < serial ∧ ∃ original : Copy V, s.copies[parent]? = some original ∧
        original.origin = copy.origin

theorem conserved_empty : Conserved ({} : Broker V) where
  queued := by simp
  delivered := by simp
  accounted := by simp
  justified := by simp
  retries := by simp

/-- A message of which every copy is accounted for is safe: the last of its copies
has no retry. -/
theorem Conserved.safe {s : Broker V} (h : Conserved s) {copy : Copy V}
    (hget : s.copies[serial]? = some copy) : s.Safe copy.origin := by
  -- the induction is on the number of copies after this one
  induction hlater : s.copies.length - serial using Nat.strong_induction_on
    generalizing serial copy with
  | _ n ih =>
    rcases h.accounted serial copy hget with
      hqueued | ⟨d, hd, rfl, hunacked⟩ | hhandled | hdead | ⟨retry, hretry, hparent⟩
    · exact Or.inl ⟨serial, hqueued, copy, hget, rfl⟩
    · exact Or.inr (Or.inl ⟨d, hd, hunacked, copy, hget, rfl⟩)
    · exact Or.inr (Or.inr (Or.inl hhandled))
    · exact Or.inr (Or.inr (Or.inr hdead))
    · obtain ⟨later, hlt, hlast⟩ := getElem_of_mem hretry
      have hretryAt : s.copies[later]? = some retry := by
        rw [getElem?_eq_getElem hlt, hlast]
      obtain ⟨horder, original, horiginal, horigin⟩ := h.retries later retry hretryAt serial hparent
      rw [hget] at horiginal
      cases horiginal
      rw [horigin]
      exact ih (s.copies.length - later) (by omega) hretryAt rfl

section Moves

variable {s : Broker V}

theorem HasRetry.enqueue (h : s.HasRetry serial) (copy : Copy V) :
    (s.enqueue copy).HasRetry serial := by
  obtain ⟨retry, hretry, hparent⟩ := h
  exact ⟨retry, mem_append_left _ hretry, hparent⟩

/-- What has become of a copy does not change; where it is may. -/
theorem Accounted.imp {t : Broker V} {origin : Nat} (h : s.Accounted serial origin)
    (hqueue : serial ∈ s.queue → t.Accounted serial origin)
    (hdeliveries : ∀ d ∈ s.deliveries, d.serial = serial → d.unacked →
      t.Accounted serial origin) (hhandled : s.handled ⊆ t.handled)
    (hdead : s.deadLetters ⊆ t.deadLetters) (hcopies : s.copies ⊆ t.copies) :
    t.Accounted serial origin := by
  rcases h with hqueued | ⟨d, hd, hserial, hunacked⟩ | horigin | ⟨q, hq⟩ | ⟨retry, hretry, hparent⟩
  · exact hqueue hqueued
  · exact hdeliveries d hd hserial hunacked
  · exact Or.inr (Or.inr (Or.inl (hhandled horigin)))
  · exact Or.inr (Or.inr (Or.inr (Or.inl ⟨q, hdead hq⟩)))
  · exact Or.inr (Or.inr (Or.inr (Or.inr ⟨retry, hcopies hretry, hparent⟩)))

theorem getElem?_enqueue {copy : Copy V} {copy' : Copy V} :
    (s.enqueue copy).copies[serial]? = some copy' ↔
      s.copies[serial]? = some copy' ∨ (serial = s.copies.length ∧ copy' = copy) := by
  show (s.copies ++ [copy])[serial]? = some copy' ↔ _
  rw [getElem?_append]
  split
  · next hlt =>
    have hne : serial ≠ s.copies.length := by omega
    simp [hne]
  · next hge =>
    have hnone : s.copies[serial]? = none := getElem?_eq_none (by omega)
    rw [hnone]
    by_cases heq : serial = s.copies.length
    · simp [heq, eq_comm]
    · simp [heq, getElem?_singleton]
      omega

section

variable (h : Conserved s)

include h

/-- Enqueuing conserves copies. -/
theorem Conserved.enqueue {copy : Copy V} (hparent : ∀ parent, copy.parent = some parent →
      ∃ original : Copy V, s.copies[parent]? = some original ∧ original.origin = copy.origin) :
    Conserved (s.enqueue copy) where
  queued := by
    intro serial hserial
    show serial < (s.copies ++ [copy]).length
    rw [length_append, length_singleton]
    rcases mem_append.mp hserial with hold | hnew
    · have hlt := h.queued serial hold
      omega
    · rw [mem_singleton.mp hnew]
      omega
  delivered := by
    intro d hd
    show d.serial < (s.copies ++ [copy]).length
    rw [length_append]
    have hlt := h.delivered d hd
    omega
  accounted := by
    intro serial copy' hget
    rcases getElem?_enqueue.mp hget with hold | ⟨rfl, rfl⟩
    · exact (h.accounted serial copy' hold).imp
        (fun hqueued => Or.inl (mem_append_left _ hqueued))
        (fun d hd hserial hunacked => Or.inr (Or.inl ⟨d, hd, hserial, hunacked⟩))
        (Subset.refl _) (Subset.refl _) (subset_append_left _ _)
    · exact Or.inl (mem_append_right _ mem_cons_self)
  justified := by
    intro d hd hphase copy' hget
    have hlt := h.delivered d hd
    rcases getElem?_enqueue.mp hget with hold | ⟨hserial, _⟩
    · exact (h.justified d hd hphase copy' hold).imp id fun hretry => hretry.enqueue copy
    · omega
  retries := by
    intro serial copy' hget parent hp
    rcases getElem?_enqueue.mp hget with hold | ⟨rfl, rfl⟩
    · obtain ⟨hlt, original, horiginal, horigin⟩ := h.retries serial copy' hold parent hp
      exact ⟨hlt, original, getElem?_enqueue.mpr (Or.inl horiginal), horigin⟩
    · obtain ⟨original, horiginal, horigin⟩ := hparent parent hp
      exact ⟨(List.getElem?_eq_some_iff.mp horiginal).1, original,
        getElem?_enqueue.mpr (Or.inl horiginal), horigin⟩

/-- A delivery moves on: it leaves its copy, and comes to its acknowledgement, only with a
reason. -/
theorem Conserved.setDelivery (hget : s.deliveries[i]? = some d) (hserial : d'.serial = d.serial)
    (hacking : d'.phase = .acking → ∀ copy, s.copies[d.serial]? = some copy →
      copy.origin ∈ s.handled ∨ s.HasRetry d.serial)
    (hleft : d.unacked → d'.unacked = false → ∀ copy, s.copies[d.serial]? = some copy →
      Accounted { s with deliveries := [] } d.serial copy.origin) :
    Conserved (s.setDelivery i d') where
  queued := h.queued
  delivered := by
    intro d'' hd''
    rcases mem_or_eq_of_mem_set hd'' with hold | rfl
    · exact h.delivered d'' hold
    · rw [hserial]
      exact h.delivered d (mem_of_getElem? hget)
  accounted := by
    intro serial copy hcopy
    refine (h.accounted serial copy hcopy).imp Or.inl ?_ (Subset.refl _) (Subset.refl _)
      (Subset.refl _)
    rintro d'' hd'' rfl hunacked
    obtain ⟨j, hj⟩ := mem_iff_getElem?.mp hd''
    by_cases hij : i = j
    · subst hij
      rw [hget] at hj
      cases hj
      cases hstill : d'.unacked with
      | true =>
        refine Or.inr (Or.inl ⟨d', ?_, hserial, hstill⟩)
        exact mem_set (List.getElem?_eq_some_iff.mp hget).1 _
      | false =>
        exact (hleft hunacked hstill copy hcopy).imp Or.inl fun _ hd => by cases hd
          (Subset.refl _) (Subset.refl _) (Subset.refl _)
    · refine Or.inr (Or.inl ⟨d'', ?_, rfl, hunacked⟩)
      apply mem_of_getElem?
      rw [Broker.setDelivery, getElem?_set_ne hij]
      exact hj
  justified := by
    intro d'' hd'' hphase copy hcopy
    rcases mem_or_eq_of_mem_set hd'' with hold | rfl
    · exact h.justified d'' hold hphase copy hcopy
    · rw [hserial] at hcopy ⊢
      exact hacking hphase copy hcopy
  retries := h.retries

theorem Conserved.moveOn (hget : s.deliveries[i]? = some d)
    (hacking : phase = .acking → ∀ copy, s.copies[d.serial]? = some copy →
      copy.origin ∈ s.handled ∨ s.HasRetry d.serial) :
    Conserved (s.setDelivery i { d with phase := phase }) := by
  refine h.setDelivery hget rfl hacking ?_
  intro hunacked hleft
  rw [hunacked] at hleft
  cases hleft

/-- Callbacks, handled messages, dead letters and queue entries that are added. -/
theorem Conserved.record (ran handled : List Nat) (deadLetters : List (String × Nat))
    (queue : List Nat) (hqueue : ∀ serial ∈ queue, serial < s.copies.length) :
    Conserved { s with
          ran := s.ran ++ ran
          handled := s.handled ++ handled
          deadLetters := s.deadLetters ++ deadLetters
          queue := s.queue ++ queue } where
  queued := by
    intro serial hserial
    rcases mem_append.mp hserial with hold | hnew
    · exact h.queued serial hold
    · exact hqueue serial hnew
  delivered := h.delivered
  accounted := by
    intro serial copy hcopy
    exact (h.accounted serial copy hcopy).imp
      (fun hqueued => Or.inl (mem_append_left _ hqueued))
      (fun d hd hserial hunacked => Or.inr (Or.inl ⟨d, hd, hserial, hunacked⟩))
      (subset_append_left _ _) (subset_append_left _ _) (Subset.refl _)
  justified := by
    intro d hd hphase copy hcopy
    exact (h.justified d hd hphase copy hcopy).imp (mem_append_left _) id
  retries := h.retries

/-- So does a delivery. -/
theorem Conserved.deliver (hget : s.queue[place]? = some serial) :
    Conserved { s with
          queue := s.queue.eraseIdx place
          deliveries := s.deliveries ++ [⟨serial, true, .received⟩] } where
  queued := fun serial' hserial' => h.queued serial' (mem_of_mem_eraseIdx hserial')
  delivered := by
    intro d hd
    rcases mem_append.mp hd with hold | hnew
    · exact h.delivered d hold
    · rw [mem_singleton.mp hnew]
      exact h.queued serial (mem_of_getElem? hget)
  accounted := by
    intro serial' copy hcopy
    refine (h.accounted serial' copy hcopy).imp ?_ (fun d hd hserial hunacked =>
      Or.inr (Or.inl ⟨d, mem_append_left _ hd, hserial, hunacked⟩))
      (Subset.refl _) (Subset.refl _) (Subset.refl _)
    · intro hqueued
      obtain ⟨j, hj⟩ := mem_iff_getElem?.mp hqueued
      by_cases hplace : j = place
      · rw [hplace, hget] at hj
        cases hj
        exact Or.inr (Or.inl ⟨_, mem_append_right _ mem_cons_self, rfl, rfl⟩)
      · exact Or.inl (mem_eraseIdx_iff_getElem?.mpr ⟨j, hplace, hj⟩)
  justified := by
    intro d hd hphase
    rcases mem_append.mp hd with hold | hnew
    · exact h.justified d hold hphase
    · rw [mem_singleton.mp hnew] at hphase
      cases hphase
  retries := h.retries

end

end Moves

end Broker

namespace RabbitMQClient

open Broker

variable {V : Type} (client : RabbitMQClient V) {s : Broker V}

section

variable (h : Conserved s)

include h

theorem conserved_callback (i : Nat) (outcome : Outcome) :
    Conserved (client.step s (.callback i outcome)) := by
  refine at?_elim h fun d copy hget _ hcopy => ?_
  have hrecorded := h.record [copy.origin] (if outcome = .success then [copy.origin] else [])
    [] [] (by simp)
  simp only [append_nil] at hrecorded
  apply hrecorded.moveOn hget
  intro hacking copy' hcopy'
  -- only a success goes on to the acknowledgement
  have hsuccess : outcome = .success := by
    cases outcome with
    | success => rfl
    | poison => cases hacking
    | otherException =>
      simp only [afterCallback] at hacking
      split at hacking <;> cases hacking
  rw [hcopy] at hcopy'
  cases hcopy'
  left
  simp [hsuccess]

theorem conserved_republish (i : Nat) (fresh : String) (result : Publish) :
    Conserved (client.step s (.republish i fresh result)) := by
  refine at?_elim h fun d copy hget _ hcopy => ?_
  have hqueued : Conserved (s.enqueue (client.retryOf d.serial copy fresh)) := by
    apply h.enqueue
    rintro parent ⟨⟩
    exact ⟨copy, hcopy, rfl⟩
  have hretry : (s.enqueue (client.retryOf d.serial copy fresh)).HasRetry d.serial :=
    ⟨_, mem_append_right _ mem_cons_self, rfl⟩
  cases result with
  | confirmed => exact hqueued.moveOn hget fun _ _ _ => Or.inr hretry
  | lost => exact h.moveOn hget fun hacking => by cases hacking
  | unconfirmed => exact hqueued.moveOn hget fun hacking => by cases hacking

theorem conserved_ack (i : Nat) (reached : Bool) : Conserved (client.step s (.ack i reached)) := by
  refine at?_elim h fun d copy hget hphase hcopy => ?_
  refine h.setDelivery hget rfl (fun hacking => by cases hacking) ?_
  intro _ _ copy' hcopy'
  rcases h.justified d (mem_of_getElem? hget) hphase copy' hcopy' with hhandled | hretry
  · exact Or.inr (Or.inr (Or.inl hhandled))
  · exact Or.inr (Or.inr (Or.inr (Or.inr hretry)))

theorem conserved_nack (i : Nat) (reached : Bool) :
    Conserved (client.step s (.nack i reached)) := by
  refine at?_elim h fun d copy hget _ hcopy => ?_
  split
  · have hrecorded := h.record [] []
      (client.queue.deadLetterQueues.map fun q => (q, copy.origin)) [] (by simp)
    simp only [append_nil] at hrecorded
    refine hrecorded.setDelivery hget rfl (fun hacking => by cases hacking) ?_
    intro _ _ copy' hcopy'
    rw [hcopy] at hcopy'
    cases hcopy'
    refine Or.inr (Or.inr (Or.inr (Or.inl ⟨client.queue.name ++ ".dlq", ?_⟩)))
    apply mem_append_right
    exact mem_map.mpr ⟨_, client.queue.dlq_mem_deadLetterQueues, rfl⟩
  · exact h.moveOn hget fun hacking => by cases hacking

theorem conserved_lose (i : Nat) : Conserved (client.step s (.lose i)) := by
  unfold step
  dsimp only
  cases hget : s.deliveries[i]? with
  | none => exact h
  | some d =>
    dsimp only
    split
    · have hserial := h.delivered d (mem_of_getElem? hget)
      have hrecorded := h.record [] [] [] [d.serial] (by simpa using hserial)
      simp only [append_nil] at hrecorded
      refine hrecorded.setDelivery hget rfl ?_ ?_
      · exact h.justified d (mem_of_getElem? hget)
      · intro _ _ _ _
        exact Or.inl (mem_append_right _ mem_cons_self)
    · exact h

/-- **One event** keeps every copy accounted for. -/
theorem conserved_step (act : Act V) : Conserved (client.step s act) := by
  cases act with
  | publish body messageId correlationId schemaVersion =>
    apply h.enqueue
    rintro parent ⟨⟩
  | deliver place =>
    unfold step
    dsimp only
    cases hget : s.queue[place]? with
    | none => exact h
    | some serial => exact h.deliver hget
  | callback i outcome => exact client.conserved_callback h i outcome
  | republish i fresh result => exact client.conserved_republish h i fresh result
  | ack i reached => exact client.conserved_ack h i reached
  | nack i reached => exact client.conserved_nack h i reached
  | cancel i =>
    unfold step
    dsimp only
    cases hget : s.deliveries[i]? with
    | none => exact h
    | some d => exact h.moveOn hget fun hacking => by cases hacking
  | lose i => exact client.conserved_lose h i

end

theorem conserved_run (acts : List (Act V)) : Conserved (client.run acts) := by
  refine foldlRecOn (motive := Conserved) acts _ conserved_empty fun s hs act _ => ?_
  exact client.conserved_step hs act

/-- How often a copy with this count and its retries can run the callback. -/
def budget (n : Int) : Int :=
  max 1 (client.maxRetries + 1 - n)

/-- What a copy can still cost the message `origin`. -/
def weight (copies : List (Copy V)) (origin serial : Nat) : Int :=
  match copies[serial]? with
  | some copy => if copy.origin = origin then client.budget (client.retryCount copy.message) else 0
  | none => 0

def cost (copies : List (Copy V)) (origin : Nat) (d : Delivery) : Int :=
  match d.phase, copies[d.serial]? with
  | .received, _ => client.weight copies origin d.serial
  | .republishing, some copy =>
    if copy.origin = origin then client.maxRetries - client.retryCount copy.message else 0
  | _, _ => 0

/-- The callbacks that were run, and those that may follow. -/
def total (s : Broker V) (origin : Nat) : Int :=
  s.ran.count origin + (s.queue.map (client.weight s.copies origin)).sum +
    (s.deliveries.map (client.cost s.copies origin)).sum

/-- **The budget.**  A retried copy has retries left, and a message never costs more than at
its start. -/
structure Budgeted (s : Broker V) : Prop where
  eligible : ∀ d ∈ s.deliveries, d.phase = .republishing →
    ∀ copy : Copy V, s.copies[d.serial]? = some copy →
      client.retryCount copy.message < client.maxRetries
  bounded : ∀ origin, client.total s origin ≤
    if origin < s.copies.length then max 1 (client.maxRetries + 1) else 0

section Budget

variable {d : Delivery} {copies : List (Copy V)} {copy : Copy V}

theorem weight_nonneg (copies : List (Copy V)) (origin serial : Nat) :
    0 ≤ client.weight copies origin serial := by
  unfold weight budget
  split
  · split
    · omega
    · exact le_refl 0
  · exact le_refl 0

theorem Budgeted.cost_nonneg {client : RabbitMQClient V} {s : Broker V} (h : client.Budgeted s)
    (origin : Nat) (hd : d ∈ s.deliveries) : 0 ≤ client.cost s.copies origin d := by
  unfold cost
  split
  · exact client.weight_nonneg _ _ _
  · next copy hphase hcopy =>
    have hlt := h.eligible d hd hphase copy hcopy
    split
    · omega
    · exact le_refl 0
  · exact le_refl 0

/-- The weights of the copies that are there do not change when one is added. -/
theorem weight_append (hlt : serial < copies.length) (copy : Copy V) (origin : Nat) :
    client.weight (copies ++ [copy]) origin serial = client.weight copies origin serial := by
  unfold weight
  rw [getElem?_append_left hlt]

theorem cost_append (hlt : d.serial < copies.length) (copy : Copy V) (origin : Nat) :
    client.cost (copies ++ [copy]) origin d = client.cost copies origin d := by
  unfold cost
  rw [client.weight_append hlt, getElem?_append_left hlt]

theorem total_enqueue (h : Conserved s) (copy : Copy V) (origin : Nat) :
    client.total (s.enqueue copy) origin = client.total s origin +
      if copy.origin = origin then client.budget (client.retryCount copy.message) else 0 := by
  have hqueue : s.queue.map (client.weight (s.copies ++ [copy]) origin) =
      s.queue.map (client.weight s.copies origin) :=
    map_congr_left fun serial hserial => client.weight_append (h.queued serial hserial) copy origin
  have hdeliveries : s.deliveries.map (client.cost (s.copies ++ [copy]) origin) =
      s.deliveries.map (client.cost s.copies origin) :=
    map_congr_left fun d hd => client.cost_append (h.delivered d hd) copy origin
  have hnew : client.weight (s.copies ++ [copy]) origin s.copies.length =
      if copy.origin = origin then client.budget (client.retryCount copy.message) else 0 := by
    simp [weight]
  unfold total enqueue
  dsimp only
  rw [map_append, sum_append, hqueue, hdeliveries, map_singleton,
    sum_singleton, hnew]
  omega

theorem total_setDelivery (hget : s.deliveries[i]? = some d) (origin : Nat) :
    client.total (s.setDelivery i d') origin =
      client.total s origin - client.cost s.copies origin d + client.cost s.copies origin d' := by
  obtain ⟨hlt, hd⟩ := List.getElem?_eq_some_iff.mp hget
  have hsum := sum_set' (s.deliveries.map (client.cost s.copies origin)) i
    (client.cost s.copies origin d')
  unfold total setDelivery
  dsimp only
  rw [map_set, hsum, dif_pos (by simpa using hlt), getElem_map, hd]
  omega

theorem total_deliver (hget : s.queue[place]? = some serial) (origin : Nat) :
    client.total { s with
          queue := s.queue.eraseIdx place
          deliveries := s.deliveries ++ [⟨serial, true, .received⟩] } origin =
      client.total s origin := by
  obtain ⟨hlt, hserial⟩ := List.getElem?_eq_some_iff.mp hget
  have hlt' : place < (s.queue.map (client.weight s.copies origin)).length := by simpa using hlt
  have hsum := CommMonoid.add_sum_eraseIdx hlt'
  rw [getElem_map, hserial, eraseIdx_map] at hsum
  have hcost : client.cost s.copies origin ⟨serial, true, .received⟩ =
      client.weight s.copies origin serial := rfl
  unfold total
  dsimp only
  rw [map_append, sum_append, map_singleton, sum_singleton, hcost]
  omega

theorem cost_of_received (hphase : d.phase = .received) (hcopy : copies[d.serial]? = some copy)
    (origin : Nat) :
    client.cost copies origin d =
      if copy.origin = origin then client.budget (client.retryCount copy.message) else 0 := by
  simp [cost, hphase, weight, hcopy]

theorem cost_of_republishing (hphase : d.phase = .republishing)
    (hcopy : copies[d.serial]? = some copy) (origin : Nat) :
    client.cost copies origin d =
      if copy.origin = origin then client.maxRetries - client.retryCount copy.message else 0 := by
  simp [cost, hphase, hcopy]

/-- A delivery that neither waits for its callback nor for its retry costs nothing. -/
theorem cost_of_spent (copies : List (Copy V)) (origin : Nat) (hspent : d.phase.spent) :
    client.cost copies origin d = 0 := by
  unfold cost
  split
  · next hphase =>
    rw [hphase] at hspent
    cases hspent
  · next hphase _ =>
    rw [hphase] at hspent
    cases hspent
  · rfl

variable {client}

/-- A delivery that moves on to a phase that costs nothing. -/
theorem Budgeted.settle (h : client.Budgeted s) (hget : s.deliveries[i]? = some d)
    (hspent : d'.phase.spent) : client.Budgeted (s.setDelivery i d') where
  eligible := by
    intro d'' hd'' hphase
    rcases mem_or_eq_of_mem_set hd'' with hold | rfl
    · exact h.eligible d'' hold hphase
    · rw [hphase] at hspent
      cases hspent
  bounded := by
    intro origin
    have hcost := h.cost_nonneg origin (mem_of_getElem? hget)
    have hbound := h.bounded origin
    rw [client.total_setDelivery hget, client.cost_of_spent _ _ hspent]
    show _ ≤ if origin < s.copies.length then _ else _
    omega

variable (client) in
/-- A run of the callback is paid from what the delivery could cost. -/
theorem cost_afterCallback (hphase : d.phase = .received) (hcopy : s.copies[d.serial]? = some copy)
    (outcome : Outcome) (origin : Nat) :
    client.cost s.copies origin { d with phase := client.afterCallback copy.message outcome } +
      (if copy.origin = origin then 1 else 0) ≤ client.cost s.copies origin d := by
  rw [client.cost_of_received hphase hcopy]
  unfold budget
  by_cases hnext : client.afterCallback copy.message outcome = .republishing
  · have hcost := client.cost_of_republishing
      (d := { d with phase := client.afterCallback copy.message outcome }) hnext hcopy origin
    split
    · omega
    · omega
  · have hspent : (client.afterCallback copy.message outcome).spent := by
      cases outcome with
      | success | poison => rfl
      | otherException =>
        simp only [afterCallback] at hnext ⊢
        split at hnext
        · next hretries =>
          rw [if_pos hretries]
          rfl
        · exact absurd rfl hnext
    rw [client.cost_of_spent _ _ hspent]
    split
    · omega
    · omega

/-- A callback stays within the budget. -/
theorem budgeted_callback (h : client.Budgeted s) (i : Nat) (outcome : Outcome) :
    client.Budgeted (client.step s (.callback i outcome)) := by
  refine at?_elim h fun d copy hget hphase hcopy => ?_
  constructor
  · intro d'' hd'' hphase'' copy'' hcopy''
    rcases mem_or_eq_of_mem_set hd'' with hold | rfl
    · exact h.eligible d'' hold hphase'' copy'' hcopy''
    · have hsame : copy = copy'' := Option.some.inj (hcopy.symm.trans hcopy'')
      rw [← hsame]
      cases outcome with
      | success | poison => cases hphase''
      | otherException =>
        simp only [afterCallback] at hphase''
        split at hphase''
        · cases hphase''
        · omega
  · intro origin
    have hpaid := client.cost_afterCallback hphase hcopy outcome origin
    have hbound := h.bounded origin
    rw [client.total_setDelivery (s := { s with
      ran := s.ran ++ [copy.origin]
      handled := s.handled ++ if outcome = .success then [copy.origin] else [] }) hget]
    have hcount : ((s.ran ++ [copy.origin]).count origin : Int) =
        s.ran.count origin + if copy.origin = origin then 1 else 0 := by
      by_cases heq : copy.origin = origin
      · simp [heq]
      · simp [heq]
    unfold total at hbound ⊢
    dsimp only [Broker.setDelivery]
    omega

section

variable (hs : Conserved s)

include hs

section

variable (h : client.Budgeted s)

include h

theorem Budgeted.enqueue (copy : Copy V) (hbound : ∀ origin, client.total s origin +
      (if copy.origin = origin then client.budget (client.retryCount copy.message) else 0) ≤
      if origin < (s.enqueue copy).copies.length then max 1 (client.maxRetries + 1) else 0) :
    client.Budgeted (s.enqueue copy) where
  eligible := by
    intro d hd hphase copy' hcopy'
    rcases getElem?_enqueue.mp hcopy' with hold | ⟨hserial, _⟩
    · exact h.eligible d hd hphase copy' hold
    · have hlt := hs.delivered d hd
      omega
  bounded := by
    intro origin
    rw [client.total_enqueue hs]
    exact hbound origin

theorem budgeted_publish (body messageId correlationId : String) (schemaVersion : V) :
    client.Budgeted (client.step s (.publish body messageId correlationId schemaVersion)) := by
  have hcount : client.retryCount
      (publishedMessage body messageId correlationId schemaVersion) = 0 := rfl
  apply h.enqueue hs
  intro origin
  have hbound := h.bounded origin
  have hlength : (s.enqueue ⟨s.copies.length, none,
      publishedMessage body messageId correlationId schemaVersion⟩).copies.length =
        s.copies.length + 1 := by
    simp [Broker.enqueue]
  dsimp only
  unfold budget
  split at hbound <;> split <;> split <;> omega

theorem total_retried (hget : s.deliveries[i]? = some d) (hphase : d.phase = .republishing)
    (hcopy : s.copies[d.serial]? = some copy) (fresh : String) (hspent : d'.phase.spent)
    (origin : Nat) :
    client.total ((s.enqueue (client.retryOf d.serial copy fresh)).setDelivery i d') origin =
      client.total s origin := by
  have hretries := h.eligible d (mem_of_getElem? hget) hphase copy hcopy
  have hcount : client.retryCount (client.retryOf d.serial copy fresh).message =
      client.retryCount copy.message + 1 :=
    headerInt_setHeader client.codec _ _ _
  have hcopy' : (s.enqueue (client.retryOf d.serial copy fresh)).copies[d.serial]? = some copy :=
    getElem?_enqueue.mpr (Or.inl hcopy)
  rw [client.total_setDelivery (s := s.enqueue (client.retryOf d.serial copy fresh)) hget,
    client.total_enqueue hs, client.cost_of_republishing hphase hcopy',
    client.cost_of_spent _ _ hspent, hcount]
  have horigin : (client.retryOf d.serial copy fresh).origin = copy.origin := rfl
  unfold budget
  split <;> omega

/-- So does a republication. -/
theorem budgeted_republish (i : Nat) (fresh : String) (result : Publish) :
    client.Budgeted (client.step s (.republish i fresh result)) := by
  refine at?_elim h fun d copy hget hphase hcopy => ?_
  -- both ways of a copy that is queued
  have hretried : ∀ d' : Delivery, d'.phase.spent →
      client.Budgeted ((s.enqueue (client.retryOf d.serial copy fresh)).setDelivery i d') := by
    intro d' hspent
    constructor
    · intro d'' hd'' hphase'' copy'' hcopy''
      rcases mem_or_eq_of_mem_set hd'' with hold | rfl
      · rcases getElem?_enqueue.mp hcopy'' with hbefore | ⟨hserial, _⟩
        · exact h.eligible d'' hold hphase'' copy'' hbefore
        · have hlt := hs.delivered d'' hold
          omega
      · rw [hphase''] at hspent
        cases hspent
    · intro origin
      have hbound := h.bounded origin
      rw [total_retried hs h hget hphase hcopy fresh hspent]
      show _ ≤ if origin < (s.copies ++ [client.retryOf d.serial copy fresh]).length then _ else _
      rw [length_append, length_singleton]
      split at hbound <;> split <;> omega
  cases result with
  | confirmed => exact hretried _ rfl
  | lost => exact h.settle hget rfl
  | unconfirmed => exact hretried _ rfl

/-- **One event without a crash** keeps the budget. -/
theorem budgeted_step (act : Act V) (hcalm : act.calm) : client.Budgeted (client.step s act) := by
  cases act with
  | publish body messageId correlationId schemaVersion =>
    exact budgeted_publish hs h body messageId correlationId schemaVersion
  | deliver place =>
    unfold step
    dsimp only
    cases hget : s.queue[place]? with
    | none => exact h
    | some serial =>
      constructor
      · intro d hd hphase
        rcases mem_append.mp hd with hold | hnew
        · exact h.eligible d hold hphase
        · rw [mem_singleton.mp hnew] at hphase
          cases hphase
      · intro origin
        rw [client.total_deliver hget]
        exact h.bounded origin
  | callback i outcome => exact budgeted_callback h i outcome
  | republish i fresh result => exact budgeted_republish hs h i fresh result
  | ack i reached => exact at?_elim h fun d copy hget _ _ => h.settle hget rfl
  | nack i reached =>
    refine at?_elim h fun d copy hget _ _ => ?_
    split
    · have hended : client.Budgeted (s.setDelivery i
          { d with unacked := false, phase := .ended }) := h.settle hget rfl
      exact ⟨hended.eligible, hended.bounded⟩
    · exact h.settle hget rfl
  | _ => cases hcalm

end

end

variable (client) in
theorem budgeted_run (acts : List (Act V)) (hcalm : ∀ act ∈ acts, act.calm) :
    client.Budgeted (client.run acts) := by
  refine (foldlRecOn (motive := fun s => Conserved s ∧ client.Budgeted s) acts _
    ⟨conserved_empty, by simp, fun origin => ?_⟩ fun s hs act hact => ?_).2
  · simp [total]
  · exact ⟨client.conserved_step hs.1 act, budgeted_step hs.1 hs.2 act (hcalm act hact)⟩

theorem Budgeted.ran_le (h : client.Budgeted s) (origin : Nat) :
    (s.ran.count origin : Int) ≤ client.total s origin := by
  have hqueue : 0 ≤ (s.queue.map (client.weight s.copies origin)).sum := by
    apply sum_nonneg
    intro x hx
    obtain ⟨serial, _, rfl⟩ := mem_map.mp hx
    exact client.weight_nonneg _ _ _
  have hdeliveries : 0 ≤ (s.deliveries.map (client.cost s.copies origin)).sum := by
    apply sum_nonneg
    intro x hx
    obtain ⟨d, hd, rfl⟩ := mem_map.mp hx
    exact h.cost_nonneg origin hd
  unfold total
  omega

end Budget

/-- **No message is lost, and retries are bounded.**  After every sequence of events,
however callbacks, publishes and acknowledgements end, every published message is queued
(itself or a retry copy), unacknowledged, handled, or dead-lettered.  Without crashes and
publish failures its callback has run at most `max_retries + 1` times, or once if no retry
is allowed. -/
theorem messages_conserved (client : RabbitMQClient V) (acts : List (Act V)) (serial : Nat)
    (copy : Copy V) (hpublished : (client.run acts).copies[serial]? = some copy) :
    (client.run acts).Safe copy.origin ∧
    ((∀ act ∈ acts, act.calm = true) →
      ((client.run acts).ran.count copy.origin : Int) ≤ max 1 (client.maxRetries + 1)) := by
  constructor
  · exact (client.conserved_run acts).safe hpublished
  · intro hcalm
    have hbudget := client.budgeted_run acts hcalm
    have hran := hbudget.ran_le copy.origin
    have hbound := hbudget.bounded copy.origin
    split at hbound
    · omega
    · omega

def plainCodec : HeaderCodec Int := ⟨id, some, fun _ => rfl⟩

/-- One retry is allowed. -/
def oneRetry : RabbitMQClient Int := ⟨plainCodec, .articles, 1⟩

/-- The callback and its copy fail; the copy is dead-lettered. -/
def failsTwice : List (Act Int) :=
  [.publish "body" "m1" "c1" 1, .deliver 0, .callback 0 .otherException,
    .republish 0 "m2" .confirmed, .ack 0 true, .deliver 0, .callback 1 .otherException,
    .nack 1 true]

theorem fails_twice_conserved : (oneRetry.run failsTwice).Safe 0 ∧
    ((oneRetry.run failsTwice).ran.count 0 : Int) ≤ max 1 (oneRetry.maxRetries + 1) := by
  have h := messages_conserved oneRetry failsTwice 0
    ⟨0, none, publishedMessage "body" "m1" "c1" 1⟩ rfl
  exact ⟨h.1, h.2 (by decide)⟩

end RabbitMQClient

end Messaging
