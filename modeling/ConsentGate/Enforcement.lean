import ConsentGate.Pass

/-!
# Enforcement

One auction: every bidder starts fully restricted, the ten purposes pass over the permissions in
increasing order, then special feature 1. A policy that is switched off, or a request to which the
regulation does not apply, allows everything; a request that needs a consent and has none stays
fully restricted. This is `TcfEnforcement` of the specification, section 4.4: `run_purpose`,
`enforce` and `enforce_for_request`.
-/

namespace ConsentGate

namespace Policy

/-- The pass of one purpose under a policy (`run_purpose`). Purpose 1 follows the treatment rule
when the signal says that it was not shown to the user. -/
def purposeStep (policy : Policy) (s : Signal) (source : DeclarationSource) (p : Purpose)
    (permissions : List Permission) : List Permission × List Event :=
  let purposePolicy := policy.purposes.get p
  if p = .one ∧ s.purposeOneTreatment then
    match policy.treatment with
    | .ignore => purposePass p purposePolicy s source permissions
    | .noAccess => (exemptOnlyPass p purposePolicy permissions, [.treatmentExemptOnly])
    | .access =>
      let (permissions, log) :=
        purposePass p { purposePolicy with strictness := .off } s source permissions
      (permissions, .treatmentNotEnforced :: log)
  else purposePass p purposePolicy s source permissions

/-- Passes in a row, with the log of all. -/
def purposeSteps (policy : Policy) (s : Signal) (source : DeclarationSource) :
    List Purpose → List Permission → List Permission × List Event
  | [], permissions => (permissions, [])
  | p :: ps, permissions =>
    let (next, log) := policy.purposeStep s source p permissions
    let (last, more) := policy.purposeSteps s source ps next
    (last, log ++ more)

/-- The permissions of an auction with a signal (`enforce`), and what enforcement reports. -/
def enforce (policy : Policy) (s : Signal) (source : DeclarationSource) (bidders : List Bidder) :
    List Permission × List Event :=
  if policy.enabled then
    let start := bidders.map (Permission.ofBidder .restrictAll)
    let (purposes, purposeLog) := policy.purposeSteps s source Purpose.all start
    let (permissions, featureLog) := featurePass policy.location s purposes
    (permissions, purposeLog ++ featureLog ++ permissions.map .outcome)
  else (bidders.map (Permission.ofBidder .allowAll), [.enforcementDisabled bidders.length])

/-- The permissions of a request (`enforce_for_request`), which may not say whether the regulation
applies and may have no consent. -/
def enforceRequest (policy : Policy) (applies : Option Bool) (consent : Option Signal)
    (source : DeclarationSource) (bidders : List Bidder) : List Permission × List Event :=
  if !policy.enabled || !policy.applies applies then
    (bidders.map (Permission.ofBidder .allowAll), [.notApplicable bidders.length])
  else
    match consent with
    | some s => policy.enforce s source bidders
    | none => (bidders.map (Permission.ofBidder .restrictAll), [.consentMissing bidders.length])

end Policy

end ConsentGate
