import Verilink.Framework.KeyedList
import Verilink.Framework.Redelivery
import Verilink.Framework.Runs

/-!
# Billing webhooks

`handleWebhookEvent`: an event of Stripe is claimed in the table of events, applied to the table of
subscriptions and marked as processed.
-/

namespace Verilink.ControlPlane

open Verilink.Framework

inductive Customer
  | named (id : String)
  | expanded (id : String)
  deriving DecidableEq, Repr

namespace Customer

def id : Customer → String
  | named id => id
  | expanded id => id

def falsy : Customer → Bool
  | named id => id = ""
  | expanded _ => false

end Customer

def truthy (text : Option String) : Option String := text.filter (· ≠ "")

structure CheckoutSession where
  metadataTenantId : Option String
  metadataPlan : Option String
  subscription : Option String
  customer : Option Customer
  deriving DecidableEq, Repr

structure StripeSubscription where
  id : String
  metadataTenantId : Option String
  metadataPlan : Option String
  customer : Customer
  status : String
  currentPeriodEnd : Option Int
  deriving DecidableEq, Repr

inductive SubscriptionChange
  | updated
  | deleted
  deriving DecidableEq, Repr

inductive EventData
  | checkoutSessionCompleted (session : CheckoutSession)
  | customerSubscription (change : SubscriptionChange) (sub : StripeSubscription)
  | other
  deriving DecidableEq, Repr

structure StripeEvent where
  id : String
  data : EventData
  deriving DecidableEq, Repr

def StripeEvent.subscription (e : StripeEvent) : Option String :=
  match e.data with
  | .checkoutSessionCompleted session => session.subscription
  | .customerSubscription _ sub => some sub.id
  | .other => none

structure Subscription where
  tenantId : String
  stripeCustomerId : String
  stripeSubscriptionId : String
  plan : String
  status : String
  currentPeriodEnd : Option Int
  deriving DecidableEq, Repr

def Subscription.key (r : Subscription) : String × String := (r.tenantId, r.stripeSubscriptionId)

@[ext]
structure Subscriptions where
  rows : List Subscription
  unique : (rows.map Subscription.key).Nodup
  deriving DecidableEq

structure UpsertSubscriptionOpts where
  tenantId : String
  stripeCustomerId : String
  stripeSubscriptionId : String
  plan : String
  status : String
  currentPeriodEnd : Option Int
  preserveOnConflict : Bool := false
  deriving DecidableEq, Repr

namespace UpsertSubscriptionOpts

def excluded (opts : UpsertSubscriptionOpts) : Subscription where
  tenantId := opts.tenantId
  stripeCustomerId := opts.stripeCustomerId
  stripeSubscriptionId := opts.stripeSubscriptionId
  plan := opts.plan
  status := opts.status
  currentPeriodEnd := opts.currentPeriodEnd

def onConflict (opts : UpsertSubscriptionOpts) (r : Subscription) : Subscription :=
  if opts.preserveOnConflict then
    { r with stripeCustomerId := opts.stripeCustomerId, plan := opts.plan }
  else
    { r with
      stripeCustomerId := opts.stripeCustomerId, plan := opts.plan, status := opts.status,
      currentPeriodEnd := opts.currentPeriodEnd }

variable (opts : UpsertSubscriptionOpts)

theorem key_onConflict (r : Subscription) :
    (opts.onConflict r).key = r.key := by
  rw [onConflict]
  split_ifs <;> rfl

theorem onConflict_onConflict (r : Subscription) :
    opts.onConflict (opts.onConflict r) = opts.onConflict r := by
  cases hp : opts.preserveOnConflict <;> simp [onConflict, hp]

theorem onConflict_excluded :
    opts.onConflict opts.excluded = opts.excluded := by
  cases hp : opts.preserveOnConflict <;> simp [onConflict, excluded, hp]

end UpsertSubscriptionOpts

namespace Subscriptions

def upsertSubscription (subs : Subscriptions) (opts : UpsertSubscriptionOpts) : Subscriptions where
  rows := upsert Subscription.key opts.onConflict opts.excluded subs.rows
  unique := nodup_upsert opts.key_onConflict subs.unique

/-- `LIMIT 1` without an order: the row that a scan of the table meets first. -/
def getSubscriptionByStripeId (subs : Subscriptions) (id : String) : Option Subscription :=
  subs.rows.find? fun r => r.stripeSubscriptionId = id

def rowsOf (id : String) (subs : Subscriptions) : Subscriptions where
  rows := subs.rows.filter fun r => r.stripeSubscriptionId = id
  unique := subs.unique.sublist (List.filter_sublist.map _)

end Subscriptions

/-- Both callers leave out the price. -/
def resolvePlan (metadataPlan : Option String) : String := (truthy metadataPlan).getD "unknown"

def CheckoutSession.opts (session : CheckoutSession) : Option UpsertSubscriptionOpts :=
  match truthy session.metadataTenantId, truthy session.subscription, session.customer with
  | some tenantId, some subscriptionId, some customer =>
    if customer.falsy then none
    else
      some
        { tenantId := tenantId
          stripeCustomerId := customer.id
          stripeSubscriptionId := subscriptionId
          plan := resolvePlan session.metadataPlan
          status := "active"
          currentPeriodEnd := none
          preserveOnConflict := true }
  | _, _, _ => none

theorem CheckoutSession.subscription_opts (session : CheckoutSession) {opts : UpsertSubscriptionOpts}
    (h : session.opts = some opts) : session.subscription = some opts.stripeSubscriptionId := by
  rw [CheckoutSession.opts] at h
  split at h
  · next tenantId subscriptionId customer _ hsub _ =>
      split at h
      · cases h
      · cases h
        exact (Option.filter_eq_some_iff.mp hsub).1
  · cases h

/-- What the handler of the other two upserts; `current_period_end` is in seconds, and zero is none.
-/
def StripeSubscription.opts (sub : StripeSubscription) (change : SubscriptionChange)
    (tenantId : String) :
    UpsertSubscriptionOpts where
  tenantId := tenantId
  stripeCustomerId := sub.customer.id
  stripeSubscriptionId := sub.id
  plan := resolvePlan sub.metadataPlan
  status := if change = .deleted then "canceled" else sub.status
  currentPeriodEnd := (sub.currentPeriodEnd.filter (· ≠ 0)).map (· * 1000)

namespace Subscriptions

def tenantOf (subs : Subscriptions) (sub : StripeSubscription) : Option String :=
  (truthy sub.metadataTenantId).or
    (truthy ((subs.getSubscriptionByStripeId sub.id).map Subscription.tenantId))

def resolve (subs : Subscriptions) (e : StripeEvent) : Option UpsertSubscriptionOpts :=
  match e.data with
  | .checkoutSessionCompleted session => session.opts
  | .customerSubscription change sub => (subs.tenantOf sub).map (sub.opts change)
  | .other => none

def applyEvent (subs : Subscriptions) (e : StripeEvent) : Subscriptions :=
  match subs.resolve e with
  | some opts => subs.upsertSubscription opts
  | none => subs

/-! ## One event -/

theorem tenant_getSubscriptionByStripeId (subs : Subscriptions) (id : String) :
    (subs.getSubscriptionByStripeId id).map Subscription.tenantId =
      ((subs.rows.map Subscription.key).find? fun k => k.2 = id).map Prod.fst := by
  rw [List.find?_map, Option.map_map]
  rfl

variable {subs : Subscriptions} {id : String} {e : StripeEvent} {opts : UpsertSubscriptionOpts}

/-- A tenant that was found is found again: rows keep their keys and come at the end. -/
theorem tenant_upsertSubscription {tenantId : String}
    (h : (subs.getSubscriptionByStripeId id).map Subscription.tenantId = some tenantId)
    (opts : UpsertSubscriptionOpts) :
    ((subs.upsertSubscription opts).getSubscriptionByStripeId id).map Subscription.tenantId =
      some tenantId := by
  rw [tenant_getSubscriptionByStripeId] at h ⊢
  rw [upsertSubscription, map_key_upsert opts.key_onConflict]
  split_ifs with hkey
  · exact h
  · rw [List.find?_append]
    cases hf : (subs.rows.map Subscription.key).find? fun k => k.2 = id with
    | none =>
      rw [hf] at h
      cases h
    | some k =>
      rw [hf] at h
      exact h

theorem tenantOf_upsertSubscription {sub : StripeSubscription} {tenantId : String}
    (h : subs.tenantOf sub = some tenantId) (opts : UpsertSubscriptionOpts) :
    (subs.upsertSubscription opts).tenantOf sub = some tenantId := by
  rw [tenantOf] at h ⊢
  cases hmeta : truthy sub.metadataTenantId with
  | some _ =>
    rw [hmeta] at h
    exact h
  | none =>
    rw [hmeta, Option.none_or, truthy, Option.filter_eq_some_iff] at h
    rw [Option.none_or, tenant_upsertSubscription h.1, truthy, Option.filter_eq_some_iff]
    exact ⟨rfl, h.2⟩

theorem resolve_upsertSubscription (h : subs.resolve e = some opts) (opts' : UpsertSubscriptionOpts) :
    (subs.upsertSubscription opts').resolve e = some opts := by
  rw [resolve] at h ⊢
  cases hdata : e.data with
  | checkoutSessionCompleted session =>
    rw [hdata] at h
    exact h
  | other =>
    rw [hdata] at h
    cases h
  | customerSubscription change sub =>
    rw [hdata] at h
    obtain ⟨tenantId, ht, rfl⟩ := Option.map_eq_some_iff.mp h
    exact Option.map_eq_some_iff.mpr ⟨tenantId, tenantOf_upsertSubscription ht opts', rfl⟩

theorem resolve_applyEvent (h : subs.resolve e = some opts) (a : StripeEvent) :
    (subs.applyEvent a).resolve e = some opts := by
  rw [applyEvent]
  cases subs.resolve a with
  | none => exact h
  | some opts' => exact resolve_upsertSubscription h opts'

theorem upsertSubscription_again (subs : Subscriptions) (opts : UpsertSubscriptionOpts) :
    (subs.upsertSubscription opts).upsertSubscription opts = subs.upsertSubscription opts := by
  ext1
  exact upsert_upsert opts.key_onConflict opts.onConflict_onConflict opts.onConflict_excluded subs.rows

theorem reapplicable_applyEvent : Reapplicable applyEvent := by
  intro subs e
  cases hr : subs.resolve e with
  | none => simp [applyEvent, hr]
  | some opts => simp [applyEvent, hr, resolve_upsertSubscription hr, upsertSubscription_again]

/-! ## One subscription -/

theorem rowsOf_upsertSubscription (id : String) (subs : Subscriptions) (opts : UpsertSubscriptionOpts) :
    (subs.upsertSubscription opts).rowsOf id =
      if opts.stripeSubscriptionId = id then (subs.rowsOf id).upsertSubscription opts
      else subs.rowsOf id := by
  have h := filter_upsert opts.key_onConflict (fun k : String × String => decide (k.2 = id)) subs.rows
    (a := opts.excluded)
  ext1
  by_cases hid : opts.stripeSubscriptionId = id
  · rw [if_pos hid]
    exact h.trans (if_pos (decide_eq_true hid))
  · rw [if_neg hid]
    exact h.trans (if_neg fun hd => hid (of_decide_eq_true hd))

theorem tenantOf_rowsOf (subs : Subscriptions) (sub : StripeSubscription) :
    (subs.rowsOf sub.id).tenantOf sub = subs.tenantOf sub := by
  rw [tenantOf, tenantOf, getSubscriptionByStripeId, getSubscriptionByStripeId, rowsOf]
  simp [List.find?_filter]

theorem resolve_subscription (h : subs.resolve e = some opts) :
    e.subscription = some opts.stripeSubscriptionId := by
  rw [resolve] at h
  rw [StripeEvent.subscription]
  cases hdata : e.data with
  | checkoutSessionCompleted session =>
    rw [hdata] at h
    exact session.subscription_opts h
  | other =>
    rw [hdata] at h
    cases h
  | customerSubscription change sub =>
    rw [hdata] at h
    obtain ⟨tenantId, ht, rfl⟩ := Option.map_eq_some_iff.mp h
    rfl

theorem resolve_rowsOf (h : e.subscription = some id) : (subs.rowsOf id).resolve e = subs.resolve e := by
  rw [StripeEvent.subscription] at h
  rw [resolve, resolve]
  cases hdata : e.data with
  | checkoutSessionCompleted session => rfl
  | other => rfl
  | customerSubscription change sub =>
    rw [hdata] at h
    cases h
    exact congrArg (Option.map (sub.opts change)) (tenantOf_rowsOf subs sub)

theorem rowsOf_applyEvent (h : e.subscription = some id) :
    (subs.applyEvent e).rowsOf id = (subs.rowsOf id).applyEvent e := by
  rw [applyEvent, applyEvent, resolve_rowsOf h]
  cases hr : subs.resolve e with
  | none => rfl
  | some opts =>
    have hid := resolve_subscription hr
    rw [h, Option.some.injEq] at hid
    exact (rowsOf_upsertSubscription id subs opts).trans (if_pos hid.symm)

theorem rowsOf_applyEvent_of_ne (h : e.subscription ≠ some id) :
    (subs.applyEvent e).rowsOf id = subs.rowsOf id := by
  rw [applyEvent]
  cases hr : subs.resolve e with
  | none => rfl
  | some opts =>
    refine (rowsOf_upsertSubscription id subs opts).trans (if_neg ?_)
    intro hid
    exact h (hid ▸ resolve_subscription hr)

theorem rowsOf_foldl {es : List StripeEvent} (h : ∀ e ∈ es, e.subscription = some id)
    (subs : Subscriptions) :
    (es.foldl applyEvent subs).rowsOf id = es.foldl applyEvent (subs.rowsOf id) := by
  induction es generalizing subs with
  | nil => rfl
  | cons e es ih =>
    rw [List.foldl_cons, List.foldl_cons, ih fun a ha => h a (List.mem_cons_of_mem _ ha)]
    rw [rowsOf_applyEvent (h e List.mem_cons_self)]

end Subscriptions

/-! ## Deliveries -/

structure WebhookRow where
  id : String
  processed : Bool
  deriving DecidableEq, Repr

/-- How far a delivery has come: its `INSERT` found the row of an earlier one, it has claimed the
event, it knows what to upsert, it has applied the event, or it has ended. -/
inductive DeliveryPhase
  | received
  | conflicting
  | claimed
  | resolved (opts : UpsertSubscriptionOpts)
  | applied
  | ended
  deriving DecidableEq, Repr

structure Delivery where
  event : StripeEvent
  phase : DeliveryPhase
  deriving DecidableEq, Repr

/-- The two tables and the deliveries. For the statements, `applied` lists the events in the order
in which they were applied. -/
structure Billing where
  subs : Subscriptions
  webhooks : List WebhookRow
  deliveries : List Delivery
  applied : List StripeEvent

inductive DeliveryStep
  | receive (e : StripeEvent)
  | insert (i : Nat)
  | select (i : Nat)
  | resolve (i : Nat)
  | upsert (i : Nat)
  | mark (i : Nat)
  | fail (i : Nat)
  deriving DecidableEq, Repr

namespace Billing

def Processed (s : Billing) (e : StripeEvent) : Prop := ⟨e.id, true⟩ ∈ s.webhooks

def moved (s : Billing) (i : Nat) (e : StripeEvent) (phase : DeliveryPhase) : Billing :=
  { s with deliveries := s.deliveries.set i ⟨e, phase⟩ }

def insertClaim (s : Billing) (i : Nat) (e : StripeEvent) : Billing :=
  if e.id ∈ s.webhooks.map WebhookRow.id then s.moved i e .conflicting
  else moved { s with webhooks := s.webhooks ++ [⟨e.id, false⟩] } i e .claimed

def selectClaim (s : Billing) (i : Nat) (e : StripeEvent) : Billing :=
  match s.webhooks.find? fun r => r.id = e.id with
  | some r => if r.processed then s.moved i e .ended else s.moved i e .claimed
  | none => s.moved i e .ended

def resolveEvent (s : Billing) (i : Nat) (e : StripeEvent) : Billing :=
  match s.subs.resolve e with
  | some opts => s.moved i e (.resolved opts)
  | none => moved { s with applied := s.applied ++ [e] } i e .applied

def upsertEvent (s : Billing) (i : Nat) (e : StripeEvent) (opts : UpsertSubscriptionOpts) : Billing :=
  moved { s with subs := s.subs.upsertSubscription opts, applied := s.applied ++ [e] } i e .applied

def markWebhookProcessed (s : Billing) (i : Nat) (e : StripeEvent) : Billing :=
  moved { s with webhooks := s.webhooks.map fun r => if r.id =
    e.id then { r with processed := true } else r }
    i e .ended

inductive Step (es : List StripeEvent) : Billing → DeliveryStep → Billing → Prop
  | receive {s : Billing} {e : StripeEvent} : e ∈ es →
      Step es s (.receive e) { s with deliveries := s.deliveries ++ [⟨e, .received⟩] }
  | insert {s : Billing} {i : Nat} {e : StripeEvent} : s.deliveries[i]? = some ⟨e, .received⟩ →
      Step es s (.insert i) (s.insertClaim i e)
  | select {s : Billing} {i : Nat} {e : StripeEvent} : s.deliveries[i]? = some ⟨e, .conflicting⟩ →
      Step es s (.select i) (s.selectClaim i e)
  | resolve {s : Billing} {i : Nat} {e : StripeEvent} : s.deliveries[i]? = some ⟨e, .claimed⟩ →
      Step es s (.resolve i) (s.resolveEvent i e)
  | upsert {s : Billing} {i : Nat} {e : StripeEvent} {opts : UpsertSubscriptionOpts} :
      s.deliveries[i]? = some ⟨e, .resolved opts⟩ → Step es s (.upsert i) (s.upsertEvent i e opts)
  | mark {s : Billing} {i : Nat} {e : StripeEvent} : s.deliveries[i]? = some ⟨e, .applied⟩ →
      Step es s (.mark i) (s.markWebhookProcessed i e)
  | fail {s : Billing} {i : Nat} {e : StripeEvent} {phase : DeliveryPhase} :
      s.deliveries[i]? = some ⟨e, phase⟩ → Step es s (.fail i) (s.moved i e .ended)

def system (es : List StripeEvent) (subs : Subscriptions) : System Billing DeliveryStep where
  init s := s.subs = subs ∧ s.deliveries = [] ∧ s.applied = [] ∧
    ∀ e ∈ es, e.id ∉ s.webhooks.map WebhookRow.id
  step := Step es

def applying (s : Billing) : DeliveryStep → Option StripeEvent
  | .upsert i => s.deliveries[i]?.map Delivery.event
  | .resolve i => (s.deliveries[i]?.map Delivery.event).filter fun e => (s.subs.resolve e).isNone
  | _ => none

/-- No event of the subscription is applied after one of it that was created later. -/
def InOrder (es : List StripeEvent) (id : String) (s : Billing) (step : DeliveryStep) : Prop :=
  ∀ e, s.applying step = some e → e.subscription = some id →
    ∀ pre post, es = pre ++ e :: post → ∀ a ∈ s.applied, a.subscription = some id → a ∉ post

/-! ## The rows of one subscription -/

/-- What the deliveries have done is in `applied`, and the rows of the subscription are what its
events there make of the rows it began with. -/
structure Inv (es : List StripeEvent) (subs : Subscriptions) (id : String) (s : Billing) : Prop where
  known : ∀ d ∈ s.deliveries, d.event ∈ es
  resolved : ∀ d ∈ s.deliveries, ∀ opts, d.phase = .resolved opts → s.subs.resolve d.event = some opts
  applied : ∀ d ∈ s.deliveries, d.phase = .applied → d.event ∈ s.applied
  processed : ∀ e ∈ es, s.Processed e → e ∈ s.applied
  rows : Delivered Subscriptions.applyEvent (es.filter fun e => e.subscription = some id)
    (subs.rowsOf id) (s.subs.rowsOf id) (s.applied.filter fun e => e.subscription = some id)

variable {es : List StripeEvent} {subs : Subscriptions} {id : String} {s : Billing} {e : StripeEvent}

theorem inv_init (h : (system es subs).init s) : Inv es subs id s := by
  obtain ⟨hsubs, hdeliveries, happlied, hnew⟩ := h
  constructor
  · simp [hdeliveries]
  · simp [hdeliveries]
  · simp [hdeliveries]
  · intro e he hp
    exact absurd (List.mem_map_of_mem hp) (hnew e he)
  · rw [hsubs, happlied]
    exact delivered_nil _ _

theorem Inv.deliveries {ds : List Delivery} {phase : DeliveryPhase} (h : Inv es subs id s) (he : e ∈ es)
    (hds : ∀ d ∈ ds, d ∈ s.deliveries ∨ d = ⟨e, phase⟩)
    (hresolved : ∀ opts, phase = .resolved opts → s.subs.resolve e = some opts)
    (happlied : phase = .applied → e ∈ s.applied) : Inv es subs id { s with deliveries := ds } := by
  refine ⟨?_, ?_, ?_, h.processed, h.rows⟩
  · intro d hd
    rcases hds d hd with hd | rfl
    · exact h.known d hd
    · exact he
  · intro d hd
    rcases hds d hd with hd | rfl
    · exact h.resolved d hd
    · exact hresolved
  · intro d hd
    rcases hds d hd with hd | rfl
    · exact h.applied d hd
    · exact happlied

theorem Inv.moved {phase : DeliveryPhase} (h : Inv es subs id s) (i : Nat) (he : e ∈ es)
    (hresolved : ∀ opts, phase = .resolved opts → s.subs.resolve e = some opts)
    (happlied : phase = .applied → e ∈ s.applied) : Inv es subs id (s.moved i e phase) :=
  h.deliveries he (fun _ hd => List.mem_or_eq_of_mem_set hd) hresolved happlied

theorem Inv.apply (h : Inv es subs id s) (he : e ∈ es)
    (horder : e.subscription = some id → ∀ pre post, es = pre ++ e :: post →
      ∀ a ∈ s.applied, a.subscription = some id → a ∉ post) :
    Inv es subs id { s with subs := s.subs.applyEvent e, applied := s.applied ++ [e] } where
  known := h.known
  resolved d hd opts hphase := Subscriptions.resolve_applyEvent (h.resolved d hd opts hphase) e
  applied d hd hphase := List.mem_append_left _ (h.applied d hd hphase)
  processed a ha hp := List.mem_append_left _ (h.processed a ha hp)
  rows := by
    by_cases hid : e.subscription = some id
    · obtain ⟨pre, post, hes⟩ := List.append_of_mem he
      dsimp only
      rw [Subscriptions.rowsOf_applyEvent hid, List.filter_append, List.filter_singleton, hid]
      simp only [decide_true, cond_true]
      apply h.rows.apply Subscriptions.reapplicable_applyEvent
      · rw [hes, List.filter_append, List.filter_cons_of_pos (by simpa using hid)]
      · intro a ha hpost
        obtain ⟨ha, hsub⟩ := List.mem_filter.mp ha
        exact horder hid pre post hes a ha (of_decide_eq_true hsub) (List.mem_filter.mp hpost).1
    · dsimp only
      rw [Subscriptions.rowsOf_applyEvent_of_ne hid, List.filter_append, List.filter_singleton]
      simpa [hid] using h.rows

theorem Inv.insertClaim (h : Inv es subs id s) (i : Nat) (he : e ∈ es) :
    Inv es subs id (s.insertClaim i e) := by
  rw [Billing.insertClaim]
  split_ifs
  · exact h.moved i he (by simp) (by simp)
  · have hnew : Inv es subs id { s with webhooks := s.webhooks ++ [⟨e.id, false⟩] } := by
      refine ⟨h.known, h.resolved, h.applied, ?_, h.rows⟩
      intro a ha hp
      apply h.processed a ha
      simpa [Processed] using hp
    exact hnew.moved i he (by simp) (by simp)

theorem Inv.selectClaim (h : Inv es subs id s) (i : Nat) (he : e ∈ es) :
    Inv es subs id (s.selectClaim i e) := by
  rw [Billing.selectClaim]
  split
  · split_ifs <;> exact h.moved i he (by simp) (by simp)
  · exact h.moved i he (by simp) (by simp)

theorem Inv.mark (h : Inv es subs id s) (hn : (es.map StripeEvent.id).Nodup) (i : Nat) (he : e ∈ es)
    (happlied : e ∈ s.applied) : Inv es subs id (s.markWebhookProcessed i e) := by
  have hmarked : Inv es subs id
      { s with webhooks := s.webhooks.map fun r => if r.id =
        e.id then { r with processed := true } else r } := by
    refine ⟨h.known, h.resolved, h.applied, ?_, h.rows⟩
    intro a ha hp
    obtain ⟨r, hr, hra⟩ := List.mem_map.mp hp
    split_ifs at hra with hid
    · -- The marked row is the event's own.
      have hra : r.id = a.id := congrArg WebhookRow.id hra
      rw [List.inj_on_of_nodup_map hn ha he (hra.symm.trans hid)]
      exact happlied
    · subst hra
      exact h.processed a ha hr
  exact hmarked.moved i he (by simp) (by simp)

theorem Inv.step {t : Billing} {step : DeliveryStep} (h : Inv es subs id s)
    (hn : (es.map StripeEvent.id).Nodup) (hok : InOrder es id s step)
    (hstep : (system es subs).step s step t) :
    Inv es subs id t := by
  cases hstep with
  | @receive e he =>
    have hds : ∀ d ∈ s.deliveries ++ [⟨e, .received⟩], d ∈ s.deliveries ∨ d = ⟨e, .received⟩ := by
      intro d hd
      simpa using hd
    exact h.deliveries he hds (by simp) (by simp)
  | insert hd => exact h.insertClaim _ (h.known _ (List.mem_of_getElem? hd))
  | select hd => exact h.selectClaim _ (h.known _ (List.mem_of_getElem? hd))
  | @resolve i e hd =>
    have he := h.known _ (List.mem_of_getElem? hd)
    rw [resolveEvent]
    cases hr : s.subs.resolve e with
    | some opts => exact h.moved i he (by simp [hr]) (by simp)
    | none =>
      have happly := h.apply he (hok e (by simp [applying, hd, hr]))
      rw [Subscriptions.applyEvent, hr] at happly
      exact happly.moved i he (by simp) (by simp)
  | @upsert i e opts hd =>
    have hmem := List.mem_of_getElem? hd
    have he := h.known _ hmem
    have happly := h.apply he (hok e (by simp [applying, hd]))
    rw [Subscriptions.applyEvent, h.resolved _ hmem opts rfl] at happly
    exact happly.moved i he (by simp) (by simp)
  | mark hd =>
    have hmem := List.mem_of_getElem? hd
    exact h.mark hn _ (h.known _ hmem) (h.applied _ hmem rfl)
  | fail hd => exact h.moved _ (h.known _ (List.mem_of_getElem? hd)) (by simp) (by simp)

/-- Once every event of a subscription has been processed, its rows are those that its events give
when they are delivered once and in order. -/
theorem rows_in_order (hn : (es.map StripeEvent.id).Nodup)
    (h : (system es subs).ReachableVia (InOrder es id) s)
    (hall : ∀ e ∈ es, e.subscription = some id → s.Processed e) :
    s.subs.rowsOf id =
      ((es.filter fun e => e.subscription = some id).foldl Subscriptions.applyEvent subs).rowsOf id := by
  have hinv : Inv es subs id s :=
    h.invariant (fun _ hs => inv_init hs) fun _ _ _ hs hok hstep => hs.step hn hok hstep
  rw [Subscriptions.rowsOf_foldl (by simp)]
  apply hinv.rows.foldl
  · exact (hn.of_map _).filter _
  · intro e he
    obtain ⟨he, hid⟩ := List.mem_filter.mp he
    exact List.mem_filter.mpr ⟨hinv.processed e he (hall e he (of_decide_eq_true hid)), hid⟩

theorem exists_delivered {ok : Billing → DeliveryStep → Prop}
    (h : (system es subs).ReachableVia ok s) (he : e ∈ es) (hnew : e.id ∉ s.webhooks.map WebhookRow.id)
    (hr : (s.subs.resolve e).isSome = true)
    (hok : ∀ t step, t.applied = s.applied ∨ t.applying step = none → ok t step) :
    ∃ t, (system es subs).ReachableVia ok t ∧ t.subs = s.subs.applyEvent e ∧
      t.applied = s.applied ++ [e] ∧
      t.webhooks = s.webhooks ++ [⟨e.id, true⟩] := by
  have hnext : ∀ s step t, (system es subs).ReachableVia ok s → ok s step → Step es s step t →
      (system es subs).ReachableVia ok t := fun _ step _ hs hok hstep => hs.next step hok hstep
  obtain ⟨opts, hr⟩ := Option.isSome_iff_exists.mp hr
  let i := s.deliveries.length
  have h₁ := hnext _ (.receive e) _ h (hok _ _ (.inl rfl)) (.receive he)
  have h₂ := hnext _ (.insert i) _ h₁ (hok _ _ (.inl rfl)) (.insert List.getElem?_concat_length)
  rw [insertClaim, if_neg hnew] at h₂
  have h₃ := hnext _ (.resolve i) _ h₂ (hok _ _ (.inl rfl)) (.resolve (e := e) (by simp [moved, i]))
  rw [resolveEvent, moved, hr] at h₃
  have h₄ := hnext _ (.upsert i) _ h₃ (hok _ _ (.inl rfl)) (.upsert (e := e) (by simp [moved, i]; rfl))
  have h₅ := hnext _ (.mark i) _ h₄ (hok _ _ (.inr rfl))
      (.mark (e := e) (by simp [moved, upsertEvent, i]))
  refine ⟨_, h₅, ?_, rfl, ?_⟩
  · rw [Subscriptions.applyEvent, hr]
    rfl
  · have hold : s.webhooks.map (fun r => if r.id = e.id then { r with processed := true } else r) =
        s.webhooks := by
      refine (List.map_congr_left fun r hr => ?_).trans (List.map_id _)
      apply if_neg
      intro hid
      exact hnew (List.mem_map.mpr ⟨r, hr, hid⟩)
    simp [markWebhookProcessed, upsertEvent, moved, hold]

theorem inOrder_of_first {step : DeliveryStep} (hn : (e :: es).Nodup) (h : ∀ a ∈ s.applied, a = e) :
    InOrder (e :: es) id s step := by
  intro a _ _ pre post hes b hb _ hpost
  rw [h b hb] at hpost
  cases pre with
  | nil =>
    cases hes
    exact (List.nodup_cons.mp hn).1 hpost
  | cons c pre =>
    cases hes
    exact (List.nodup_cons.mp hn).1 (List.mem_append_right _ (List.mem_cons_of_mem _ hpost))

def proSubscription : StripeSubscription where
  id := "sub_1"
  metadataTenantId := some "t"
  metadataPlan := some "pro"
  customer := .named "cus_1"
  status := "active"
  currentPeriodEnd := none

def proUpdated : StripeEvent := ⟨"evt_1", .customerSubscription .updated proSubscription⟩

def proDeleted : StripeEvent := ⟨"evt_2", .customerSubscription .deleted proSubscription⟩

def initial : Billing := ⟨⟨[], List.nodup_nil⟩, [], [], []⟩

theorem init_initial (es : List StripeEvent) : (system es initial.subs).init initial :=
  ⟨rfl, rfl, rfl, by simp [initial]⟩

/-- Both events are delivered, the first one first. -/
theorem rows_in_order_pro :
    ∃ s, (system [proUpdated, proDeleted] initial.subs).ReachableVia
        (InOrder [proUpdated, proDeleted] "sub_1") s ∧
      (∀ e ∈ [proUpdated, proDeleted], e.subscription = some "sub_1" → s.Processed e) ∧
      s.subs.rowsOf "sub_1" =
        (([proUpdated, proDeleted].filter fun e => e.subscription = some "sub_1").foldl
          Subscriptions.applyEvent initial.subs).rowsOf "sub_1" := by
  have hn : [proUpdated, proDeleted].Nodup := by decide
  have hok : ∀ (t : Billing) step, (∀ a ∈ t.applied, a = proUpdated) ∨ t.applying step = none →
      InOrder [proUpdated, proDeleted] "sub_1" t step := by
    rintro t step (h | h)
    · exact inOrder_of_first hn h
    · intro e he
      rw [h] at he
      cases he
  obtain ⟨s₁, h₁, hsubs₁, happlied₁, hwebhooks₁⟩ :=
    exists_delivered (e := proUpdated) (.init (init_initial [proUpdated, proDeleted])) (by simp)
      (by simp [initial]) (by decide) fun t step ht =>
        hok t step (ht.imp_left fun ht => by simp [ht, initial])
  obtain ⟨s₂, h₂, hsubs₂, happlied₂, hwebhooks₂⟩ :=
    exists_delivered (e := proDeleted) h₁ (by simp) (by rw [hwebhooks₁]; decide)
      (by rw [hsubs₁]; decide) fun t step ht =>
        hok t step (ht.imp_left fun ht => by simp [ht, happlied₁, initial])
  have hall : ∀ e ∈ [proUpdated, proDeleted], e.subscription = some "sub_1" → s₂.Processed e := by
    simp [Processed, hwebhooks₂, hwebhooks₁]
  exact ⟨s₂, h₂, hall, rows_in_order (by decide) h₂ hall⟩

/-- The deletion is delivered first, and the older update makes the subscription active again. -/
theorem canceled_becomes_active :
    ∃ s, (system [proUpdated, proDeleted] initial.subs).Reachable s ∧
      (∀ e ∈ [proUpdated, proDeleted], s.Processed e) ∧
      (s.subs.rowsOf "sub_1").rows.map Subscription.status = ["active"] ∧
      (([proUpdated, proDeleted].foldl Subscriptions.applyEvent initial.subs).rowsOf "sub_1").rows.map
        Subscription.status = ["canceled"] := by
  have h₀ : (system [proUpdated, proDeleted] initial.subs).ReachableVia (fun _ _ => True) initial :=
    .init (init_initial _)
  obtain ⟨s₁, h₁, hsubs₁, happlied₁, hwebhooks₁⟩ :=
    exists_delivered (e := proDeleted) h₀ (by simp)
      (by simp [initial]) (by decide) fun _ _ _ => trivial
  obtain ⟨s₂, h₂, hsubs₂, happlied₂, hwebhooks₂⟩ :=
    exists_delivered (e := proUpdated) h₁ (by simp) (by rw [hwebhooks₁]; decide)
      (by rw [hsubs₁]; decide) fun _ _ _ => trivial
  refine ⟨s₂, h₂, ?_, ?_, by decide⟩
  · simp [Processed, hwebhooks₂, hwebhooks₁]
  · rw [hsubs₂, hsubs₁]
    decide

end Billing

end Verilink.ControlPlane
