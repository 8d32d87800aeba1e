import Redaction.Proofs.FaultOrigin

/-!
# The faults of a service

What a service reports can be told from its methods one by one. In a method the first fault hides
those behind it; one method hides nothing of another. A service with a bad status code of its own
reports that alone.

* `Method.faults naming s m` lists what a method reports, told from the method and from what is
  skipped. `Method.reported_resolve` says that its resolution reports this and nothing else.
* `Service.resolve_of_badCode` and `Service.resolve_eq_error_iff` tell the outcome of a service from
  its status code and its methods.
* `service_faults` is the main statement.
-/

namespace Redaction

open Report (reported)

/-! ### Methods -/

namespace Method

/-- The number that a method sets in place of a status code, unless it or its service is skipped. -/
def badCode? (s : Service) (m : Method) : Option UInt32 :=
  if s.options.skip || m.options.skip then none else m.options.code.filter fun n => 16 < n.toNat

/-- What is wrong with the types of a method: the first that is missing, else all faults of its
output. -/
def typeFaults (naming : Naming) (s : Service) (m : Method) : List Fault :=
  match m.input, m.output with
  | none, _ => [Fault.structural (m.location s) "method has no input type"]
  | some _, none => [Fault.structural (m.location s) "method has no output type"]
  | some _, some output => reported (output.resolve naming)

/-- The faults of a method of a service: its bad status code if it has one, else those of its
types. -/
def faults (naming : Naming) (s : Service) (m : Method) : List Fault :=
  match m.badCode? s with
  | some n => [Fault.invalidStatusCode (m.location s) n]
  | none => m.typeFaults naming s

variable {settings : Settings} {naming : Naming} {s : Service} {inherited : CallPolicy} {m : Method}

/-- The code of a skipped method is not looked at. -/
theorem faults_of_skip (h : s.options.skip = true ∨ m.options.skip = true) :
    m.faults naming s = m.typeFaults naming s := by
  have hcode : m.badCode? s = none := if_pos (Bool.or_eq_true_iff.2 h)
  rw [faults, hcode]

theorem badCode?_eq_some_iff (n : UInt32) : m.badCode? s = some n ↔
    s.options.skip = false ∧ m.options.skip = false ∧ m.options.code = some n ∧ 16 < n.toNat := by
  unfold badCode?
  split
  next hskip =>
    refine iff_of_false nofun fun h => ?_
    rw [h.1, h.2.1] at hskip
    cases hskip
  next hskip =>
    obtain ⟨hservice, hmethod⟩ := Bool.or_eq_false_iff.1 (Bool.eq_false_iff.2 hskip)
    simp [hservice, hmethod]

/-- The policy of a method fails exactly if its code is bad. -/
theorem refine_eq (hs : CallPolicy.ofService settings s = .ok inherited) :
    match m.badCode? s with
    | some n => inherited.refine (m.location s) m.options =
        .error (Fault.invalidStatusCode (m.location s) n)
    | none => ∃ policy, inherited.refine (m.location s) m.options = .ok policy := by
  have hskip : inherited.skip = s.options.skip := (CallPolicy.settled_of_ofService hs).1
  cases hcode : m.badCode? s with
  | some n =>
    obtain ⟨hservice, hmethod, hn, hlarge⟩ := (badCode?_eq_some_iff n).1 hcode
    have hfails : m.options.statusCode (m.location s) inherited.statusCode =
        .error (Fault.invalidStatusCode (m.location s) n) :=
      (CallOptions.statusCode_eq_error_iff _ _ _ _).2 ⟨n, hn, hlarge, rfl⟩
    simp [CallPolicy.refine, hskip, hservice, hmethod, hfails]
  | none =>
    cases hrefine : inherited.refine (m.location s) m.options with
    | ok policy => exact ⟨policy, rfl⟩
    | error x =>
      obtain ⟨hservice, hmethod, n, hn, hlarge, -⟩ := CallPolicy.refine_eq_error hrefine
      have hbad := (badCode?_eq_some_iff n).2 ⟨hskip ▸ hservice, hmethod, hn, hlarge⟩
      cases hcode.symm.trans hbad

/-- The resolution of a method reports its faults. -/
theorem reported_resolve (hs : CallPolicy.ofService settings s = .ok inherited) :
    reported (m.resolve naming s inherited) = m.faults naming s := by
  have hpolicy := m.refine_eq hs
  unfold resolve faults typeFaults
  rw [Report.reported_ofExcept_bind]
  cases hcode : m.badCode? s with
  | some n =>
    rw [hcode] at hpolicy
    rw [hpolicy]
  | none =>
    rw [hcode] at hpolicy
    obtain ⟨policy, hpolicy⟩ := hpolicy
    rw [hpolicy]
    cases m.input with
    | none => rfl
    | some input =>
      cases m.output with
      | none => rfl
      | some output => exact Report.reported_bind_ok (output.resolve naming) _

theorem resolve_eq_error_iff (hs : CallPolicy.ofService settings s = .ok inherited) (r : Report) :
    m.resolve naming s inherited = .error r ↔
      m.faults naming s ≠ [] ∧ r.faults = m.faults naming s := by
  rw [← reported_resolve hs]
  exact (m.explained_resolve naming s inherited).eq_error_iff r

/-- A type that is missing, or an output that has a fault, is a fault of the method. -/
theorem typeFaults_ne_nil (h : m.input = none ∨ m.output = none ∨
    ∃ output r, m.output = some output ∧ output.resolve naming = .error r) :
    m.typeFaults naming s ≠ [] := by
  unfold typeFaults
  split
  · exact List.cons_ne_nil _ _
  · exact List.cons_ne_nil _ _
  next hinput houtput =>
    obtain h | h | ⟨output, r, h, hr⟩ := h
    · cases h.symm.trans hinput
    · cases h.symm.trans houtput
    · cases h.symm.trans houtput
      exact (((Message.explained_resolve naming _).eq_error_iff r).1 hr).1

theorem faults_ne_nil (h : m.typeFaults naming s ≠ []) : m.faults naming s ≠ [] := by
  unfold faults
  split
  · exact List.cons_ne_nil _ _
  · exact h

end Method

/-! ### Services -/

namespace Service

variable {settings : Settings} {naming : Naming} {s : Service}

/-- A service whose policy is in order reports the faults of all its methods, if the run does not
fail fast. -/
theorem reported_resolve (hslow : settings.failFast = false) {policy : CallPolicy}
    (hs : CallPolicy.ofService settings s = .ok policy) :
    reported (s.resolve settings naming) = s.methods.flatMap (Method.faults naming s) := by
  unfold resolve
  rw [Report.reported_ofExcept_bind, hs, hslow]
  refine (Report.reported_bind_ok _ _).trans ?_
  rw [Report.tried_false, Report.collect, Report.reported_result]
  show (s.methods.map _).flatMap reported = _
  rw [List.flatMap_map]
  exact List.flatMap_congr fun m _ => m.reported_resolve hs

/-- A service with a bad status code reports that alone, skipped or not. -/
theorem resolve_of_badCode {n : UInt32} (hcode : s.options.code = some n) (hn : 16 < n.toNat) :
    s.resolve settings naming = .error ⟨[Fault.invalidStatusCode s.fullName n]⟩ := by
  have hpolicy : CallPolicy.ofService settings s = .error (Fault.invalidStatusCode s.fullName n) :=
    (CallPolicy.ofService_eq_error_iff settings s _).2 ⟨n, hcode, hn, rfl⟩
  unfold resolve
  rw [hpolicy]
  rfl

theorem exists_policy (s : Service) (settings : Settings)
    (h : ∀ n, s.options.code = some n → n.toNat ≤ 16) :
    ∃ policy, CallPolicy.ofService settings s = .ok policy := by
  cases hpolicy : CallPolicy.ofService settings s with
  | ok policy => exact ⟨policy, rfl⟩
  | error x =>
    obtain ⟨n, hcode, hn, -⟩ := (CallPolicy.ofService_eq_error_iff settings s x).1 hpolicy
    exact absurd (h n hcode) (Nat.not_le.2 hn)

/-- A service whose policy is in order fails exactly if one of its methods does. -/
theorem resolve_eq_error_iff (hslow : settings.failFast = false) {policy : CallPolicy}
    (hs : CallPolicy.ofService settings s = .ok policy) (d : Report) :
    s.resolve settings naming = .error d ↔
      (∃ m ∈ s.methods, ∃ r, m.resolve naming s policy = .error r) ∧
        d.faults = s.methods.flatMap (Method.faults naming s) := by
  have hfails : (∃ m ∈ s.methods, ∃ r, m.resolve naming s policy = .error r) ↔
      s.methods.flatMap (Method.faults naming s) ≠ [] := by
    simp only [Method.resolve_eq_error_iff hs, exists_and_left, ne_eq, List.flatMap_eq_nil_iff,
      not_forall, exists_prop]
    exact exists_congr fun m => and_congr_right fun _ => and_iff_left ⟨⟨_⟩, rfl⟩
  rw [hfails, ← reported_resolve hslow hs]
  exact (s.explained_resolve settings naming).eq_error_iff d

/-- A service fails with every method that fails on account of its types, whatever is skipped. -/
theorem exists_report_of_typeFaults {m : Method} (hm : m ∈ s.methods)
    (h : m.typeFaults naming s ≠ []) (hslow : settings.failFast = false) :
    ∃ d, s.resolve settings naming = .error d := by
  by_cases hcode : ∀ n, s.options.code = some n → n.toNat ≤ 16
  · obtain ⟨policy, hs⟩ := s.exists_policy settings hcode
    have hm' : m.resolve naming s policy = .error ⟨m.faults naming s⟩ :=
      (m.resolve_eq_error_iff hs _).2 ⟨m.faults_ne_nil h, rfl⟩
    exact ⟨⟨_⟩, (s.resolve_eq_error_iff hslow hs _).2 ⟨⟨m, hm, _, hm'⟩, rfl⟩⟩
  · obtain ⟨n, hn⟩ := not_forall.1 hcode
    obtain ⟨hn, hlarge⟩ := Classical.not_imp.1 hn
    exact ⟨_, s.resolve_of_badCode hn (Nat.lt_of_not_le hlarge)⟩

end Service

/-- **A service reports the faults of its methods, and nothing else.** With a bad status code of its
own it reports that alone, skipped or not. Otherwise it fails exactly if one of its methods does,
and reports the faults of its methods one after the other. A method reports its own bad status code,
or else a missing input, or else a missing output, or else all faults of its output. If it or its
service is skipped the code counts for nothing, but a missing type or an output with a fault fails
the service all the same. -/
theorem service_faults {settings : Settings} {naming : Naming} (hslow : settings.failFast = false)
    (s : Service) :
    (∀ n, s.options.code = some n → 16 < n.toNat →
      s.resolve settings naming = .error ⟨[Fault.invalidStatusCode s.fullName n]⟩) ∧
      ((∀ n, s.options.code = some n → n.toNat ≤ 16) →
        ∃ policy, CallPolicy.ofService settings s = .ok policy ∧
          (∀ m ∈ s.methods, ∀ r, m.resolve naming s policy = .error r ↔
            m.faults naming s ≠ [] ∧ r.faults = m.faults naming s) ∧
          ∀ d, s.resolve settings naming = .error d ↔
            (∃ m ∈ s.methods, ∃ r, m.resolve naming s policy = .error r) ∧
              d.faults = s.methods.flatMap (Method.faults naming s)) ∧
      ∀ m ∈ s.methods,
        (s.options.skip = true ∨ m.options.skip = true →
          m.faults naming s = m.typeFaults naming s) ∧
        ((m.input = none ∨ m.output = none ∨
            ∃ output r, m.output = some output ∧ output.resolve naming = .error r) →
          ∃ d, s.resolve settings naming = .error d) := by
  refine ⟨fun n => s.resolve_of_badCode, fun hcode => ?_, fun m hm => ⟨m.faults_of_skip, ?_⟩⟩
  · obtain ⟨policy, hs⟩ := s.exists_policy settings hcode
    exact ⟨policy, hs, fun m _ => m.resolve_eq_error_iff hs, s.resolve_eq_error_iff hslow hs⟩
  · intro htypes
    exact s.exists_report_of_typeFaults hm (m.typeFaults_ne_nil htypes) hslow

/-- A skipped method with a number that is no status code, and without an output. -/
def Method.withoutOutput : Method :=
  ⟨"Ping", "", some (.ofNames "Request" "acme.Request"), none, false, false,
    ⟨true, false, some 99, none⟩⟩

/-- A service with three methods that have faults: one with a number that is no status code and
without types, the skipped one, and one whose output has two options. The fourth is in order. -/
def Service.withFaults : Service :=
  let request : TypeName := .ofNames "Request" "acme.Request"
  let reply := Message.ofType (.ofNames "Reply" "acme.Reply")
  { name := "Ledgers"
    fullName := "acme.Ledgers"
    methods :=
      [⟨"Post", "", none, none, false, false, ⟨false, false, some 99, none⟩⟩, .withoutOutput,
        .ofTypes "Read" "acme.Ledgers.Read" request (reply.configured ⟨true, true, false⟩),
        .ofTypes "Close" "acme.Ledgers.Close" request reply]
    options := .unset }

/-- Each method with faults reports the first of them, the skipped one its missing output. Under a
number that is no status code the skipped service reports that alone. -/
theorem service_faults_withFaults :
    (∃ d, Service.withFaults.resolve .standard .bare = .error d ∧
      d.faults = [Fault.invalidStatusCode "acme.Ledgers.Post" 99,
        Fault.structural "acme.Ledgers.Ping" "method has no output type",
        Fault.conflictingOptions "acme.Reply" true true false]) ∧
      Method.withoutOutput.faults .bare .withFaults =
        Method.withoutOutput.typeFaults .bare .withFaults ∧
      (Service.withFaults.configured ⟨true, false, some 17, none⟩).resolve .standard .bare =
        .error ⟨[Fault.invalidStatusCode "acme.Ledgers" 17]⟩ := by
  obtain ⟨-, hfaults, htypes⟩ := @service_faults .standard .bare rfl .withFaults
  obtain ⟨policy, -, -, hresolve⟩ := hfaults nofun
  obtain ⟨hskipped, hfails⟩ :=
    htypes .withoutOutput (List.mem_cons_of_mem _ List.mem_cons_self)
  obtain ⟨d, hd⟩ := hfails (.inr (.inl rfl))
  refine ⟨⟨d, hd, ((hresolve d).1 hd).2.trans (by decide +kernel)⟩, hskipped (.inr rfl), ?_⟩
  exact (@service_faults .standard .bare rfl
    (Service.withFaults.configured ⟨true, false, some 17, none⟩)).1 17 rfl (by decide)

end Redaction
