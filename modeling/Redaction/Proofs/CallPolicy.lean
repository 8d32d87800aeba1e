import Mathlib.Data.List.Forall2
import Redaction.Proofs.FailFast

/-!
# Call options over three levels

What a method sets for itself goes before what its service sets, and that before the settings of the
run. A skipped method keeps what it gets from above, but nothing of its own.

* `CallOptions.statusCode_eq_ok_iff`, `CallPolicy.settled_of_ofService` and
  `CallPolicy.settled_of_refine` say what one level makes of the one above it.
* `Method.exists_steps_of_resolve` and `Service.resolve_eq_ok_iff` open the resolution of a method
  and of a service that have a plan.
* `MethodPlan.Inherits settings s m p`: the plan `p` of a method `m` takes each setting from the
  first level that has it.
* `options_inherited` is the main statement.
-/

namespace Redaction

theorem StatusCode.ofNat?_eq_some_iff (n : Nat) (c : StatusCode) :
    ofNat? n = some c ↔ c.toNat = n := by
  constructor
  · intro h
    have hall : ∀ i : Fin all.length, (all[i]).toNat = i := by decide
    obtain ⟨hn, rfl⟩ := List.getElem?_eq_some_iff.1 h
    exact hall ⟨n, hn⟩
  · rintro rfl
    exact ofNat?_toNat c

theorem StatusCode.toNat_injective : Function.Injective toNat := by
  intro a b h
  exact Option.some.inj ((ofNat?_toNat a).symm.trans (h ▸ ofNat?_toNat b))

/-! ### One level -/

/-- A level settles the status code: that of its own number if it has one, else the inherited. -/
theorem CallOptions.statusCode_eq_ok_iff (location : String) (inherited c : StatusCode)
    (o : CallOptions) :
    o.statusCode location inherited = .ok c ↔
      c.toNat = (o.code.map UInt32.toNat).getD inherited.toNat := by
  unfold statusCode
  cases o.code with
  | none => simp [StatusCode.toNat_injective.eq_iff, eq_comm]
  | some n =>
    simp only [Option.map_some, Option.getD_some, ← StatusCode.ofNat?_eq_some_iff]
    cases StatusCode.ofNat? n.toNat <;> simp

/-- What a level sets for itself, and nothing if it is skipped. -/
def unlessSkipped {α : Type} (skip : Bool) (own : Option α) : Option α := if skip then none else own

namespace CallPolicy

/-- A policy has what a level sets for itself, and the rest from the level above. -/
structure Settled (code : Option UInt32) (errorMessage : Option String) (inheritedCode : StatusCode)
    (inheritedTemplate : String) (policy : CallPolicy) : Prop where
  statusCode_eq : policy.statusCode.toNat = (code.map UInt32.toNat).getD inheritedCode.toNat
  errorTemplate_eq : policy.errorTemplate = errorMessage.getD inheritedTemplate

theorem settled_of_ofService {settings : Settings} {s : Service} {policy : CallPolicy}
    (h : ofService settings s = .ok policy) :
    policy.skip = s.options.skip ∧ policy.internal = s.options.internal ∧
      policy.Settled s.options.code s.options.errorMessage settings.statusCode
        settings.errorTemplate := by
  obtain ⟨c, hc, h⟩ := bind_eq_ok_iff.1 h
  cases h
  exact ⟨rfl, rfl, (CallOptions.statusCode_eq_ok_iff _ _ _ _).1 hc, rfl⟩

theorem settled_of_refine {location : String} {inherited policy : CallPolicy} {o : CallOptions}
    (h : inherited.refine location o = .ok policy) :
    policy.skip = (inherited.skip || o.skip) ∧
      policy.internal = (!policy.skip && (inherited.internal || o.internal)) ∧
      policy.Settled (unlessSkipped policy.skip o.code) (unlessSkipped policy.skip o.errorMessage)
        inherited.statusCode inherited.errorTemplate := by
  unfold refine at h
  split at h
  next hskip =>
    cases h
    exact ⟨hskip.symm, rfl, rfl, rfl⟩
  next hskip =>
    obtain ⟨c, hc, h⟩ := bind_eq_ok_iff.1 h
    cases h
    exact ⟨(Bool.not_eq_true _ ▸ hskip).symm, rfl,
      (CallOptions.statusCode_eq_ok_iff _ _ _ _).1 hc, rfl⟩

end CallPolicy

/-! ### Methods -/

theorem Report.ofExcept_eq_ok_iff {α : Type} {outcome : Except Fault α} {a : α} :
    Report.ofExcept outcome = .ok a ↔ outcome = .ok a := by
  cases outcome <;> simp [ofExcept, fail]

theorem required_eq_ok_iff {α : Type} {location reason : String} {part : Option α} {a : α} :
    required location reason part = .ok a ↔ part = some a := by
  cases part <;> simp [required]

namespace MethodPlan

/-- A plan takes each setting from the first of the method, its service and the run that has it. -/
structure Inherits (settings : Settings) (s : Service) (m : Method) (p : MethodPlan) : Prop where
  name_eq : p.name = m.name
  fullName_eq : p.fullName = m.location s
  skip_eq : p.skip = (s.options.skip || m.options.skip)
  internal_eq : p.internal = (!p.skip && (s.options.internal || m.options.internal))
  statusCode_eq : p.statusCode.toNat =
    (((unlessSkipped p.skip m.options.code).or s.options.code).map UInt32.toNat).getD
      settings.statusCode.toNat
  errorMessage_eq : p.errorMessage =
    Template.fill (((unlessSkipped p.skip m.options.errorMessage).or s.options.errorMessage).getD
      settings.errorTemplate) s.name m.name
  clientStreaming_eq : p.clientStreaming = m.clientStreaming
  serverStreaming_eq : p.serverStreaming = m.serverStreaming
  redactsResponse_iff : p.redactsResponse = true ↔
    p.skip = false ∧ p.internal = false ∧ p.clientStreaming = false ∧ p.serverStreaming = false

/-- The plan with its streams set. -/
def withStreams (p : MethodPlan) (client server : Bool) : MethodPlan :=
  { p with clientStreaming := client, serverStreaming := server }

theorem redactsResponse_eq_true_iff (p : MethodPlan) :
    p.redactsResponse = true ↔
      p.skip = false ∧ p.internal = false ∧ p.clientStreaming = false ∧
        p.serverStreaming = false := by
  simp [redactsResponse, streams, and_assoc]

end MethodPlan

namespace Method

variable {naming : Naming} {s : Service} {inherited : CallPolicy} {m : Method} {p : MethodPlan}

/-- The plan of a method is put together from its policy, its input and the plan of its output. -/
theorem exists_steps_of_resolve (h : m.resolve naming s inherited = .ok p) :
    ∃ policy input message output, inherited.refine (m.location s) m.options = .ok policy ∧
      m.input = some input ∧ m.output = some message ∧ message.resolve naming = .ok output ∧
      p = {
        name := m.name
        fullName := m.location s
        skip := policy.skip
        input := naming input
        output := output
        internal := policy.internal
        statusCode := policy.statusCode
        errorMessage := Template.fill policy.errorTemplate s.name m.name
        clientStreaming := m.clientStreaming
        serverStreaming := m.serverStreaming } := by
  obtain ⟨policy, hpolicy, h⟩ := bind_eq_ok_iff.1 h
  obtain ⟨input, hinput, h⟩ := bind_eq_ok_iff.1 h
  obtain ⟨message, hmessage, h⟩ := bind_eq_ok_iff.1 h
  obtain ⟨output, houtput, h⟩ := bind_eq_ok_iff.1 h
  cases h
  exact ⟨policy, input, message, output, Report.ofExcept_eq_ok_iff.1 hpolicy,
    required_eq_ok_iff.1 (Report.ofExcept_eq_ok_iff.1 hinput),
    required_eq_ok_iff.1 (Report.ofExcept_eq_ok_iff.1 hmessage), houtput, rfl⟩

theorem inherits_of_resolve {settings : Settings}
    (hs : CallPolicy.ofService settings s = .ok inherited)
    (h : m.resolve naming s inherited = .ok p) : p.Inherits settings s m := by
  obtain ⟨hskip, hinternal, hservice⟩ := CallPolicy.settled_of_ofService hs
  obtain ⟨policy, input, message, output, hpolicy, -, -, -, rfl⟩ := exists_steps_of_resolve h
  obtain ⟨hskip', hinternal', hmethod⟩ := CallPolicy.settled_of_refine hpolicy
  rw [hskip] at hskip'
  rw [hinternal] at hinternal'
  refine ⟨rfl, rfl, hskip', hinternal', ?_, ?_, rfl, rfl, MethodPlan.redactsResponse_eq_true_iff _⟩
  · rw [hmethod.statusCode_eq, hservice.statusCode_eq, Option.map_or, Option.getD_or]
  · rw [hmethod.errorTemplate_eq, hservice.errorTemplate_eq, Option.getD_or]

/-- The streams of a method are in its plan and count for nothing else. -/
theorem resolve_withStreams (client server : Bool) :
    (m.withStreams client server).resolve naming s inherited =
      (m.resolve naming s inherited).map (MethodPlan.withStreams · client server) := by
  simp only [resolve, map_bind]
  rfl

end Method

/-! ### Services -/

/-- Elements that correspond still do when those at one place are changed alike. -/
theorem forall₂_modify {α β : Type} {R : α → β → Prop} {f : α → α} {g : β → β}
    (hchange : ∀ a b, R a b → R (f a) (g b)) {as : List α} {bs : List β}
    (h : List.Forall₂ R as bs) (i : Nat) : List.Forall₂ R (as.modify i f) (bs.modify i g) := by
  induction h generalizing i with
  | nil => cases i <;> exact .nil
  | cons hab hrest ih =>
    cases i with
    | zero => exact .cons (hchange _ _ hab) hrest
    | succ i => exact .cons hab (ih i)

namespace Report

variable {α β : Type}

theorem collect_eq_ok_iff {steps : List (Except Report α)} {as : List α}
    (h : ∀ s ∈ steps, Explained s) : collect steps = .ok as ↔ steps = as.map .ok := by
  unfold collect
  rw [result_eq_ok_iff]
  constructor
  · rintro ⟨hnil, rfl⟩
    exact (map_ok_values ((failures_eq_nil_iff h).1 hnil)).symm
  · rintro rfl
    induction as with
    | nil => exact ⟨rfl, rfl⟩
    | cons a as ih =>
      obtain ⟨hnil, hvalues⟩ := ih fun s hs => h s (List.mem_cons_of_mem _ hs)
      exact ⟨hnil, congrArg (a :: ·) hvalues⟩

/-- Several steps have their values exactly if each has its own, tried to the end or not. -/
theorem collect_tried_eq_ok_iff {resolve : α → Except Report β} {as : List α} {bs : List β}
    (h : ∀ s ∈ as.map resolve, Explained s) (failFast : Bool) :
    collect (tried failFast (as.map resolve)) = .ok bs ↔
      List.Forall₂ (fun a b => resolve a = .ok b) as bs := by
  have hpairs : List.Forall₂ (fun a b => resolve a = .ok b) as bs ↔
      as.map resolve = bs.map .ok := by
    rw [← List.forall₂_eq_eq_eq, List.forall₂_map_left_iff, List.forall₂_map_right_iff]
  rw [hpairs, ← collect_eq_ok_iff h]
  cases failFast with
  | false => rfl
  | true =>
    have hcut : Cut (collect (throughFailure (as.map resolve))) (collect (as.map resolve)) :=
      cut_collect h
    show collect (throughFailure _) = .ok bs ↔ _
    generalize collect (throughFailure _) = x, collect (as.map resolve) = y at hcut
    cases hcut <;> simp

end Report

/-- The plan with the streams of one method set. -/
def ServicePlan.withStreams (p : ServicePlan) (i : Nat) (client server : Bool) : ServicePlan :=
  { p with methods := p.methods.modify i fun q => q.withStreams client server }

namespace Service

/-- The service with the streams of one method set. -/
def withStreams (s : Service) (i : Nat) (client server : Bool) : Service :=
  { s with methods := s.methods.modify i fun m => m.withStreams client server }

variable {settings : Settings} {naming : Naming} {s : Service} {p : ServicePlan}

/-- A service has a plan exactly if its options are in order and each method has one, and the plan
is made up of theirs. -/
theorem resolve_eq_ok_iff : s.resolve settings naming = .ok p ↔
    ∃ policy, CallPolicy.ofService settings s = .ok policy ∧
      List.Forall₂ (fun m q => m.resolve naming s policy = .ok q) s.methods p.methods ∧
      p = {
        name := s.name
        fullName := s.fullName
        skip := policy.skip
        methods := p.methods } := by
  unfold resolve
  rw [bind_eq_ok_iff]
  refine exists_congr fun policy => ?_
  rw [Report.ofExcept_eq_ok_iff, bind_eq_ok_iff]
  simp only [Report.collect_tried_eq_ok_iff (s.explained_methods naming policy)]
  refine and_congr_right fun _ => ?_
  constructor
  · rintro ⟨ps, hps, ⟨⟩⟩
    exact ⟨hps, rfl⟩
  · rintro ⟨hps, hp⟩
    exact ⟨p.methods, hps, congrArg Except.ok hp.symm⟩

/-- The streams of a method are in the plan of its service and count for nothing else. -/
theorem resolve_withStreams (h : s.resolve settings naming = .ok p) (i : Nat)
    (client server : Bool) :
    (s.withStreams i client server).resolve settings naming =
      .ok (p.withStreams i client server) := by
  obtain ⟨policy, hpolicy, hmethods, hp⟩ := resolve_eq_ok_iff.1 h
  refine resolve_eq_ok_iff.2 ⟨policy, hpolicy, forall₂_modify ?_ hmethods i, by rw [hp]; rfl⟩
  intro m q hq
  show (m.withStreams client server).resolve naming s policy = _
  rw [Method.resolve_withStreams, hq]
  rfl

end Service

/-- **Call options are inherited over three levels, each on its own.** A service that has a plan is
skipped exactly if it says so, and each of its methods has a plan, in order, that takes every
setting from the first level that has it. If other streams are set for a method, that changes the
streams in its plan and nothing else. -/
theorem options_inherited {settings : Settings} {naming : Naming} {s : Service} {p : ServicePlan}
    (h : s.resolve settings naming = .ok p) :
    p.skip = s.options.skip ∧
      List.Forall₂ (MethodPlan.Inherits settings s) s.methods p.methods ∧
      ∀ (i : Nat) (client server : Bool),
        (s.withStreams i client server).resolve settings naming =
          .ok (p.withStreams i client server) := by
  obtain ⟨policy, hpolicy, hmethods, hp⟩ := Service.resolve_eq_ok_iff.1 h
  refine ⟨?_, ?_, Service.resolve_withStreams h⟩
  · rw [hp]
    exact (CallPolicy.settled_of_ofService hpolicy).1
  · exact hmethods.imp fun m q hq => m.inherits_of_resolve hpolicy hq

/-- A service for internal use with a code of its own. The first method is skipped in spite of
options that are not in order, the second sets a code and a message, the third sets nothing. -/
def ledgers : Service :=
  let request : TypeName := .ofNames "Request" "acme.Request"
  let reply := Message.ofType (.ofNames "Reply" "acme.Reply")
  let method (name : String) (o : CallOptions) : Method :=
    (Method.ofTypes name ("acme.Ledgers." ++ name) request reply).configured o
  { name := "Ledgers"
    fullName := "acme.Ledgers"
    methods :=
      [method "Ping" ⟨true, true, some 99, some "%method% is off"⟩,
        method "Post" ⟨false, false, some 13, some "%method% of %service%"⟩,
        method "Read" .unset]
    options := ⟨false, true, some 5, none⟩ }

/-- The skipped method is let through with the code of the service, the second is denied with its
own code and message, the third with those from above; a stream of the third is in its plan
alone. -/
theorem inherited_ledgers : ∃ p, ledgers.resolve .standard .bare = .ok p ∧
    p.skip = false ∧ p.methods.map MethodPlan.internal = [false, true, true] ∧
      p.methods.map MethodPlan.statusCode = [.notFound, .internal, .notFound] ∧
      (∃ q ∈ p.methods, q.errorMessage = "Post of Ledgers") ∧
      List.Forall₂ (MethodPlan.Inherits .standard ledgers) ledgers.methods p.methods ∧
      (ledgers.withStreams 2 true false).resolve .standard .bare =
        .ok (p.withStreams 2 true false) := by
  obtain ⟨p, hp⟩ : ∃ p, ledgers.resolve .standard .bare = .ok p := ⟨_, rfl⟩
  obtain ⟨hskip, hmethods, hstreams⟩ := options_inherited hp
  refine ⟨p, hp, hskip, ?_, ?_, ?_, hmethods, hstreams 2 true false⟩
  all_goals cases hp
  · rfl
  · rfl
  · exact ⟨_, List.mem_cons_of_mem _ List.mem_cons_self, by decide +kernel⟩

end Redaction
