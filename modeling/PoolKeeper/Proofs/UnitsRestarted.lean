import PoolKeeper.Proofs.OrderFirst
import PoolKeeper.Proofs.RestoreOrder

/-!
# `PoolKeeper/Proofs/UnitsRestarted.lean` — what a restore stops it starts again

A restore stops the units that use the pool, and starts them when the pool is restored. It asks for them
both times, goes through them in opposite ways, and leaves out services each time anew. That the two are
inverse to each other takes a registry that says the same both times, which is what a `Registry` that
the events agree with means.

`Issues ctx u op orders` says which orders to units a part of a restore gives, in the order of time: all
of `orders` if it succeeds, and as many of the first ones as it came to if it fails. So the orders of the
whole are put together from those of the parts, and a part that asks the registry gives the orders that
belong to the answer on which the registry and the event agree (`Issues.ask`).
-/

set_option autoImplicit false

namespace PoolKeeper.Service

open Operation

/-! ## Orders to units -/

def isUnitOrder : Call → Bool
  | .stop _ | .start _ => true
  | _ => false

/-- The orders to units among events, in the order of time. -/
def unitOrders (es : List Event) : List Call := ((calls es).filter isUnitOrder).reverse

/-- The units that were stopped, in the order of time. -/
def stoppedUnits (es : List Event) : List Dependent := (unitOrders es).filterMap fun
  | .stop d => some d
  | _ => none

/-- The units that were started, in the order of time. -/
def startedUnits (es : List Event) : List Dependent := (unitOrders es).filterMap fun
  | .start d => some d
  | _ => none

theorem unitOrders_append (es old : List Event) :
    unitOrders (es ++ old) = unitOrders old ++ unitOrders es := by
  simp [unitOrders, calls]

theorem unitOrders_updated (r : Record) (saved : Bool) : unitOrders [.updated r saved] = [] := rfl

theorem unitOrders_called (c : Call) (reply : c.Reply) :
    unitOrders [.called c reply] = if isUnitOrder c then [c] else [] := by
  cases c <;> rfl

/-! ## The registry -/

/-- What the registry of units says: the units in the order they start in, and which would start. -/
structure Registry where
  services : List String
  applications : List String
  starts : Dependent → Bool

namespace Registry

variable (u : Registry)

/-- If the event is an answer of the registry, it is the one that the registry gives. -/
def Agrees : Event → Prop
  | .called .services listed => listed = u.services.map (.mk .service)
  | .called .applications listed => listed = u.applications.map (.mk .application)
  | .called (.shouldStart d) answer => answer = u.starts d
  | _ => True

instance : DecidablePred u.Agrees
  | .updated .. => .isTrue trivial
  | .called .services listed => inferInstanceAs (Decidable (listed = _))
  | .called .applications listed => inferInstanceAs (Decidable (listed = _))
  | .called (.shouldStart d) answer => inferInstanceAs (Decidable (answer = u.starts d))
  | .called .now _ | .called (.poolExists _) _ | .called (.datasetExists _) _
  | .called (.createDataset ..) _ | .called (.mountpoint _) _ | .called (.snapshot _) _
  | .called (.destroy _) _ | .called .engineAvailable _ | .called (.connect ..) _
  | .called (.create ..) _ | .called (.upload ..) _ | .called .listSnapshots _
  | .called (.expire _) _ | .called (.fetch ..) _ | .called (.mirror ..) _ | .called (.start _) _
  | .called (.stop _) _ => .isTrue trivial

/-- Whether a service is stopped and started, in an installation whose own unit is `self`. -/
def manages (self : String) (d : Dependent) : Bool := d.name ≠ self && u.starts d

/-- The services that are stopped and started, in the order they start in. -/
def managed (self : String) : List Dependent :=
  (u.services.map (.mk .service)).filter (u.manages self)

/-- All units that are stopped and started, in the order they start in. -/
def dependents (self : String) : List Dependent :=
  u.managed self ++ u.applications.map (.mk .application)

/-- The own unit is not among the services. -/
theorem name_ne_self {self : String} {d : Dependent} (hd : d ∈ u.dependents self)
    (hservice : d.kind = .service) : d.name ≠ self := by
  rcases List.mem_append.mp hd with hmanaged | happlication
  · have hmanages : u.manages self d = true := (List.mem_filter.mp hmanaged).2
    simp only [manages, Bool.and_eq_true, decide_eq_true_eq] at hmanages
    exact hmanages.1
  · obtain ⟨name, -, rfl⟩ := List.mem_map.mp happlication
    cases hservice

/-- The orders of a whole restore. -/
def restoreOrders (self : String) : List Call :=
  (u.dependents self).reverse.map .stop ++ (u.dependents self).map .start

end Registry

/-! ## What a part of a restore orders -/

variable {σ α β : Type} {ctx : Context σ} {u : Registry} {C : Call → Prop}
  {U : Record → Record → Prop}

/-- As long as the registry says the same, the events between the worlds have orders as in `P`. -/
def Ordered (u : Registry) (P : List Call → Prop) (w w' : World σ) : Prop :=
  ∃ es, w'.events = es ++ w.events ∧ ((∀ e ∈ es, u.Agrees e) → P (unitOrders es))

/-- The operation gives these orders, and only the first ones of them if it fails. -/
def Issues (ctx : Context σ) (u : Registry) (op : Operation σ α) (orders : List Call) : Prop :=
  ∀ w, Ensures ctx op w (fun _ => Ordered u (· = orders) w) (fun _ => Ordered u (· <+: orders) w)

/-- What is ordered later comes after what was ordered before. -/
theorem Ordered.after {P : List Call → Prop} {orders : List Call} {w w₁ w₂ : World σ}
    (h : Ordered u (· = orders) w w₁) (h' : Ordered u P w₁ w₂) :
    Ordered u (fun all => ∃ more, P more ∧ all = orders ++ more) w w₂ := by
  obtain ⟨es, hes, horders⟩ := h
  obtain ⟨es', hes', hmore⟩ := h'
  refine ⟨es' ++ es, by rw [hes', hes, List.append_assoc], fun hagrees => ?_⟩
  rw [List.forall_mem_append] at hagrees
  exact ⟨unitOrders es', hmore hagrees.1, by rw [unitOrders_append, horders hagrees.2]⟩

theorem Ordered.mono {P P' : List Call → Prop} {w w' : World σ} (h : Ordered u P w w')
    (hP : ∀ orders, P orders → P' orders) : Ordered u P' w w' := by
  obtain ⟨es, hes, horders⟩ := h
  exact ⟨es, hes, fun hagrees => hP _ (horders hagrees)⟩

theorem Ordered.of_steps {w w' : World σ} (h : Steps C U w w')
    (hC : ∀ c, C c → isUnitOrder c = false) : Ordered u (· = []) w w' := by
  refine h.keeps (P := fun _ es' => ∃ es, es' = es ++ w.events ∧
    ((∀ e ∈ es, u.Agrees e) → unitOrders es = [])) ?_ ?_ ⟨[], rfl, fun _ => rfl⟩
  · rintro c reply _ _ hc ⟨es, rfl, horders⟩
    refine ⟨.called c reply :: es, rfl, fun hagrees => ?_⟩
    rw [← List.singleton_append, unitOrders_append, unitOrders_called, hC c hc,
      horders fun e he => hagrees e (List.mem_cons_of_mem _ he)]
    rfl
  · rintro _ r saved _ _ ⟨es, rfl, horders⟩
    refine ⟨.updated r saved :: es, rfl, fun hagrees => ?_⟩
    rw [← List.singleton_append, unitOrders_append, unitOrders_updated,
      horders fun e he => hagrees e (List.mem_cons_of_mem _ he)]
    rfl

namespace Issues

variable {op : Operation σ α} {next : α → Operation σ β} {orders more : List Call}

/-- What gives no orders, whatever comes of it. -/
theorem nothing (h : Footprint ctx C U op) (hC : ∀ c, C c → isUnitOrder c = false) :
    Issues ctx u op [] := fun w =>
  (h w).mono (fun _ _ hsteps => .of_steps hsteps hC)
    fun _ _ hsteps => (Ordered.of_steps hsteps hC).mono fun _ hnil => hnil ▸ List.prefix_rfl

/-- What fails at once gave none of any orders. -/
theorem throw (f : Fault) : Issues ctx u (throw f : Operation σ α) orders := fun _ =>
  .throw ⟨[], rfl, fun _ => List.nil_prefix⟩

theorem bind (h : Issues ctx u op orders) (hnext : ∀ a, Issues ctx u (next a) more) :
    Issues ctx u (op >>= next) (orders ++ more) := fun w => by
  refine .bind ((h w).mono (fun a w₁ h₁ => (hnext a w₁).mono ?_ ?_) fun _ _ hfailed => ?_)
  · rintro _ w₂ h₂
    refine (h₁.after h₂).mono ?_
    rintro _ ⟨_, rfl, rfl⟩
    rfl
  · rintro _ w₂ h₂
    refine (h₁.after h₂).mono ?_
    rintro _ ⟨_, hprefix, rfl⟩
    exact (List.prefix_append_right_inj orders).mpr hprefix
  · exact hfailed.mono fun _ hprefix => hprefix.trans (List.prefix_append orders more)

/-- The orders of a part after another that gives none. -/
theorem after (h : Issues ctx u op []) (hnext : ∀ a, Issues ctx u (next a) orders) :
    Issues ctx u (op >>= next) orders := bind h hnext

/-- The orders of a part before another that gives none. -/
theorem before (h : Issues ctx u op orders) (hnext : ∀ a, Issues ctx u (next a) []) :
    Issues ctx u (op >>= next) orders := by
  have hbind := h.bind hnext
  rwa [List.append_nil] at hbind

theorem ite {c : Prop} [Decidable c] {other : Operation σ α} (hthen : c → Issues ctx u op orders)
    (helse : ¬ c → Issues ctx u other orders) : Issues ctx u (if c then op else other) orders :=
  fun w => .ite (fun hc => hthen hc w) fun hc => helse hc w

theorem settings : Issues ctx u Operation.settings [] :=
  nothing (C := fun _ => False) (U := Untouched) .settings fun _ h => h.elim

theorem update (f : Record → Record) : Issues ctx u (Operation.update f) [] :=
  nothing (C := fun _ => False) (U := fun _ _ => True) (.update fun _ => trivial) fun _ h => h.elim

theorem onMachine (step : StateM Machine α) : Issues ctx u (Operation.onMachine step) [] :=
  nothing (C := fun _ => False) (U := Untouched) (.onMachine step) fun _ h => h.elim

/-- What depends on an answer gives the orders for the answer on which registry and event agree. -/
theorem ask (c : Call) {next : c.Reply → Operation σ β} {ordersFor : c.Reply → List Call}
    (hout : ctx.host.Outside) (hc : isUnitOrder c = false)
    (hnext : ∀ reply, Issues ctx u (next reply) (ordersFor reply))
    (hagrees : ∀ reply, u.Agrees (.called c reply) → ordersFor reply = orders) :
    Issues ctx u (call c >>= next) orders := fun w => by
  refine .bind (.call hout fun reply w₁ _ he => ?_)
  have hasked : Ordered u (fun given => given = [] ∧ ordersFor reply = orders) w w₁ :=
    ⟨[.called c reply], he, fun hall => ⟨by rw [unitOrders_called, hc]; rfl,
      hagrees reply (hall _ List.mem_cons_self)⟩⟩
  refine (hnext reply w₁).mono (fun _ w₂ h₂ => ?_) fun _ w₂ h₂ => ?_
  all_goals
    obtain ⟨es, hes, hgiven⟩ := hasked
    obtain ⟨es', hes', hlater⟩ := h₂
    refine ⟨es' ++ es, by rw [hes', hes, List.append_assoc], fun hall => ?_⟩
    rw [List.forall_mem_append] at hall
    obtain ⟨hnone, heq⟩ := hgiven hall.2
    rw [unitOrders_append, hnone, List.nil_append, ← heq]
    exact hlater hall.1

theorem of_runIn {op' : Operation σ α} (hrun : ∀ w, runIn ctx op' w = runIn ctx op w)
    (h : Issues ctx u op orders) : Issues ctx u op' orders := fun w => by
  have hw := h w
  unfold Ensures at hw ⊢
  rwa [hrun w]

/-- An order, whatever comes of it. -/
theorem order (hout : ctx.host.Outside) {c : Call} (hc : isUnitOrder c = true) :
    Issues ctx u (call c) [c] := fun w =>
  .call hout fun reply _ _ he => ⟨[.called c reply], he, fun _ => by
    rw [unitOrders_called, hc, if_pos rfl]⟩

theorem pure (a : α) : Issues ctx u (pure a) [] :=
  nothing (C := fun _ => False) (U := Untouched) (.pure a) fun _ h => h.elim

theorem forM {γ : Type} {step : γ → Operation σ Unit} {ordersOf : γ → List Call}
    (h : ∀ x, Issues ctx u (step x) (ordersOf x)) :
    ∀ xs : List γ, Issues ctx u (xs.forM step) (xs.flatMap ordersOf)
  | [] => pure ()
  | x :: xs => bind (h x) fun _ => forM h xs

end Issues

/-! ## Stopping and starting -/

theorem flatMap_if {γ δ : Type} (p : γ → Bool) (f : γ → δ) (xs : List γ) :
    (xs.flatMap fun x => if p x then [f x] else []) = (xs.filter p).map f := by
  induction xs with
  | nil => rfl
  | cons x xs ih => cases hx : p x <;> simp [hx, ih]

section Units

variable (hout : ctx.host.Outside)

include hout

theorem stopUnit_issues (d : Dependent) : Issues ctx u (stopUnit d) [.stop d] :=
  .bind (.order hout rfl) fun _ => .pure ()

theorem startUnit_issues (d : Dependent) : Issues ctx u (startUnit d) [.start d] :=
  .bind (.order hout rfl) fun _ => .pure ()

/-- A service is given an order if it is managed. -/
theorem ifManaged_issues {act : Dependent → Operation σ Unit} {orderTo : Dependent → Call}
    (hact : ∀ d, Issues ctx u (act d) [orderTo d]) (d : Dependent) :
    Issues ctx u (ifManaged act d)
      (if u.manages ctx.settings.selfUnit d then [orderTo d] else []) := by
  by_cases hself : d.name = ctx.settings.selfUnit
  · have hunmanaged : u.manages ctx.settings.selfUnit d = false := by simp [Registry.manages, hself]
    rw [hunmanaged]
    refine .of_runIn (fun w => ?_) (.pure ())
    simp [ifManaged, isManaged, runIn_bind, hself]
  · have hnext (starts : Bool) : Issues ctx u (if starts then act d else pure ())
        (if starts then [orderTo d] else []) := by
      cases starts with
      | true => exact hact d
      | false => exact .pure ()
    refine .of_runIn (fun w => ?_) (.ask (.shouldStart d) hout rfl hnext ?_)
    · simp [ifManaged, isManaged, runIn_bind, hself]
    · rintro _ rfl
      simp [Registry.manages, hself]

theorem stopDependents_issues :
    Issues ctx u stopDependents ((u.dependents ctx.settings.selfUnit).reverse.map .stop) := by
  have hservices : Issues ctx u (do (← call .services).reverse.forM (ifManaged stopUnit))
      ((u.managed ctx.settings.selfUnit).reverse.map .stop) := by
    refine .ask _ hout rfl
      (fun listed => .forM (ifManaged_issues hout (stopUnit_issues hout)) listed.reverse) ?_
    rintro _ rfl
    rw [flatMap_if, List.filter_reverse]
    rfl
  refine .ask _ hout rfl (fun listed => .bind (.forM (stopUnit_issues hout) listed.reverse)
    fun _ => hservices) ?_
  rintro _ rfl
  rw [← List.map_eq_flatMap, Registry.dependents, List.reverse_append, List.map_append]

theorem startDependents_issues :
    Issues ctx u startDependents ((u.dependents ctx.settings.selfUnit).map .start) := by
  have happlications : Issues ctx u (do (← call .applications).forM startUnit)
      ((u.applications.map (.mk .application)).map .start) := by
    refine .ask _ hout rfl (fun listed => .forM (startUnit_issues hout) listed) ?_
    rintro _ rfl
    exact List.map_eq_flatMap.symm
  refine .ask _ hout rfl
    (fun listed => .bind (.forM (ifManaged_issues hout (startUnit_issues hout)) listed)
      fun _ => happlications) ?_
  rintro _ rfl
  rw [flatMap_if, Registry.dependents, List.map_append]
  rfl

end Units

/-! ## A restore -/

section Restore

variable (hout : ctx.host.Outside)

include hout

theorem fetchAndApply_issues (id : String) (safety : PoolSnapshot) (mountpoint : String) :
    Issues ctx u (fetchAndApply id safety mountpoint)
      ((u.dependents ctx.settings.selfUnit).map .start) := by
  refine .after (.update _) fun _ => .after (.nothing (C := fun _ => False) (U := Untouched)
    (.outcome (.onFiles _)) fun _ h => h.elim) fun made => ?_
  cases made with
  | error f => exact .after (.update _) fun _ => .throw _
  | ok _ =>
    refine .after (.update _) fun _ => .ask _ hout rfl (fun fetched => ?_) fun _ _ => rfl
    cases fetched with
    | error f => exact .after (.update _) fun _ => .after (.onMachine _) fun _ => .throw _
    | ok _ =>
      refine .after (.update _) fun _ => .ask _ hout rfl (fun applied => ?_) fun _ _ => rfl
      refine .after (.onMachine _) fun _ => ?_
      cases applied with
      | error f => exact .after (.update _) fun _ => .throw _
      | ok _ =>
        refine .after (.update _) fun _ => ?_
        exact .before (startDependents_issues hout) fun _ => .update _

theorem restoreCycle_issues (id : String) :
    Issues ctx u (restoreCycle id) (u.restoreOrders ctx.settings.selfUnit) := by
  refine .after (.settings) fun s => .bind (stopDependents_issues hout) fun _ =>
    .after (.update _) fun _ => .ask _ hout rfl (fun now => ?_) fun _ _ => rfl
  refine .after (.nothing (.outcome (take_footprint hout _ _ now)) ?_) fun taken => ?_
  · intro c hc
    cases c <;> first | exact hc.elim | rfl
  cases taken with
  | error f => exact .after (.update _) fun _ => .throw _
  | ok safety =>
    refine .after (.update _) fun _ => .ask _ hout rfl (fun mounted => ?_) fun _ _ => rfl
    cases mounted with
    | error f => exact .after (.update _) fun _ => .throw _
    | ok mountpoint => exact fetchAndApply_issues hout id safety mountpoint

theorem tryRestore_issues (id : String) :
    Issues ctx u (tryRestore id) (u.restoreOrders ctx.settings.selfUnit) := by
  refine .after (.nothing (admitRestore_footprint hout id) ?_) fun _ =>
    .after (.nothing (claim_footprint _ (C := fun _ => False)) fun _ h => h.elim) fun claimed => ?_
  · intro c hc
    cases c <;> first | exact hc.elim | rfl
  · exact .ite (fun _ => .throw _) fun _ => restoreCycle_issues hout id

theorem restore_issues (id : String) :
    Issues ctx u (restore id) (u.restoreOrders ctx.settings.selfUnit) := by
  have htry : Issues ctx u (tryRestore (Text.trim id)) (u.restoreOrders ctx.settings.selfUnit) :=
    tryRestore_issues hout (Text.trim id)
  -- The order for the restore is cleared whatever came of it, and no unit is told anything by that.
  refine fun w => .bind (.outcome ((htry w).mono (fun _ w₁ h₁ => ?_) fun f w₁ h₁ => ?_))
  all_goals
    obtain ⟨es, hes, horders⟩ := h₁
    refine .bind (.update fun saved w₂ _ he => ?_)
  · refine .pure ⟨.updated _ saved :: es, by rw [he, hes, List.cons_append], fun hall => ?_⟩
    exact horders fun e hmem => hall e (List.mem_cons_of_mem _ hmem)
  · refine .throw ⟨.updated _ saved :: es, by rw [he, hes, List.cons_append], fun hall => ?_⟩
    exact horders fun e hmem => hall e (List.mem_cons_of_mem _ hmem)

end Restore

theorem mem_dependents_of_issued {self : String} {es : List Event} {d : Dependent}
    (horders : unitOrders es <+: u.restoreOrders self)
    (hd : d ∈ stoppedUnits es ++ startedUnits es) : d ∈ u.dependents self := by
  -- Whichever list it is in, an order to the unit is among those of a whole restore.
  rcases List.mem_append.mp hd with hstopped | hstarted
  · obtain ⟨c, hc, hunit⟩ := List.mem_filterMap.mp hstopped
    cases c <;> cases hunit
    simpa [Registry.restoreOrders] using horders.subset hc
  · obtain ⟨c, hc, hunit⟩ := List.mem_filterMap.mp hstarted
    cases c <;> cases hunit
    simpa [Registry.restoreOrders] using horders.subset hc

/-- A unit is stopped or started only if it is an application, or a service that would start again and is
not the program itself. A restore that succeeds starts, in the opposite order, exactly the units that it
stopped, and these are all such units, each as often as it is listed. -/
theorem restarted_as_stopped (hout : ctx.host.Outside) (u : Registry) (id : String) (w : World σ) :
    ∃ es, (runIn ctx (restore id) w).2.events = es ++ w.events ∧
      ((∀ e ∈ es, u.Agrees e) →
        (∀ d ∈ stoppedUnits es ++ startedUnits es,
          d.kind = .service → d.name ≠ ctx.settings.selfUnit) ∧
        ((runIn ctx (restore id) w).1 = .ok () →
          startedUnits es = (stoppedUnits es).reverse ∧
          startedUnits es = u.dependents ctx.settings.selfUnit)) := by
  have hrestore : Issues ctx u (restore id) (u.restoreOrders ctx.settings.selfUnit) :=
    restore_issues hout id
  refine Ensures.of_result (P := fun result w' => ∃ es, w'.events = es ++ w.events ∧
    ((∀ e ∈ es, u.Agrees e) →
      (∀ d ∈ stoppedUnits es ++ startedUnits es,
        d.kind = .service → d.name ≠ ctx.settings.selfUnit) ∧
      (result = .ok () → startedUnits es = (stoppedUnits es).reverse ∧
        startedUnits es = u.dependents ctx.settings.selfUnit))) ((hrestore w).mono ?_ ?_)
  · rintro ⟨⟩ w' ⟨es, hes, horders⟩
    refine ⟨es, hes, fun hall => ⟨fun d hd => ?_, fun _ => ?_⟩⟩
    · exact u.name_ne_self (mem_dependents_of_issued (horders hall ▸ List.prefix_rfl) hd)
    · have hstarted : startedUnits es = u.dependents ctx.settings.selfUnit := by
        simp [startedUnits, horders hall, Registry.restoreOrders, List.filterMap_map]
      have hstopped : stoppedUnits es = (u.dependents ctx.settings.selfUnit).reverse := by
        simp [stoppedUnits, horders hall, Registry.restoreOrders, List.filterMap_map]
      rw [hstarted, hstopped, List.reverse_reverse]
      exact ⟨rfl, rfl⟩
  · rintro f w' ⟨es, hes, horders⟩
    refine ⟨es, hes, fun hall => ⟨fun d hd => ?_, fun hok => nomatch hok⟩⟩
    exact u.name_ne_self (mem_dependents_of_issued (horders hall) hd)

/-- A registry with units that are listed twice, the program's own unit, an application of the same name,
and a service that would not start. -/
def staff : Registry where
  services := ["incus", "poolvault", "nfs", "incus"]
  applications := ["web", "poolvault", "web"]
  starts d := d.name ≠ "nfs"

/-- Its answers. One unit cannot be stopped, and another one cannot be started. -/
def staffed : Answers Unit
  | .services, _, m => (staff.services.map (.mk .service), (), m)
  | .applications, _, m => (staff.applications.map (.mk .application), (), m)
  | .shouldStart d, _, m => (staff.starts d, (), m)
  | .stop d, _, m => (if d.name = "incus" then .error ⟨.restoreStep, "timed out"⟩ else .ok (), (), m)
  | .start d, _, m => (if d.name = "web" then .error ⟨.restoreStep, "timed out"⟩ else .ok (), (), m)
  | c, host, m => agreeable c host m

theorem restarted_as_stopped_staffed :
    ∃ es, (runIn ⟨{}, staffed.host⟩ (restore "k123") ready).2.events = es ++ ready.events ∧
      (∀ e ∈ es, staff.Agrees e) ∧ startedUnits es = (stoppedUnits es).reverse ∧
      startedUnits es = [⟨.service, "incus"⟩, ⟨.service, "incus"⟩, ⟨.application, "web"⟩,
        ⟨.application, "poolvault"⟩, ⟨.application, "web"⟩] := by
  have hout : (Context.mk {} staffed.host).host.Outside := staffed.outside
  have hok : (runIn ⟨{}, staffed.host⟩ (restore "k123") ready).1 = .ok () := by decide +kernel
  have hall : ∀ e ∈ (runIn ⟨{}, staffed.host⟩ (restore "k123") ready).2.events, staff.Agrees e := by
    decide +kernel
  obtain ⟨es, hes, hunits⟩ := restarted_as_stopped hout staff "k123" ready
  have hagrees : ∀ e ∈ es, staff.Agrees e := fun e hmem =>
    hall e (hes ▸ List.mem_append_left _ hmem)
  obtain ⟨hreverse, hstarted⟩ := (hunits hagrees).2 hok
  exact ⟨es, hes, hagrees, hreverse, hstarted.trans (by decide)⟩

end PoolKeeper.Service
