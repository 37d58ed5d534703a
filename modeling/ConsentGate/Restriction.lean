import ConsentGate.Purpose

/-!
# Restrictions

Seven flags say what a bidder may not do in an auction. A flag that is set restricts; enforcement
only ever clears flags, and each flag has one owner that may clear it: a purpose, or special
feature 1. The flags are `Restriction` and the records `PrivacyEnforcementAction` of the
specification, section 3; who owns a flag stands in the table of section 4.2.

Results:

* `Restrictions.isRestricted_grant`: granting clears exactly the given flags.
* `Restrictions.ext_of_isRestricted`: the seven answers determine the record.
-/

namespace ConsentGate

/-- One privacy restriction (`Restriction`). -/
inductive Flag where
  | blockBidderRequest
  | blockPixelSync
  | blockAnalyticsReport
  | removeUserFpd
  | removeUserIds
  | maskGeo
  | maskDeviceIp
  deriving DecidableEq

namespace Flag

/-- Every flag, in the order in which flags are listed. -/
def all : List Flag :=
  [blockBidderRequest, blockPixelSync, blockAnalyticsReport, removeUserFpd, removeUserIds, maskGeo,
    maskDeviceIp]

theorem mem_all (f : Flag) : f ∈ all := by cases f <;> decide

/-- The word for a flag. -/
def name : Flag → String
  | blockBidderRequest => "BlockBidderRequest"
  | blockPixelSync => "BlockPixelSync"
  | blockAnalyticsReport => "BlockAnalyticsReport"
  | removeUserFpd => "RemoveUserFpd"
  | removeUserIds => "RemoveUserIds"
  | maskGeo => "MaskGeo"
  | maskDeviceIp => "MaskDeviceIp"

end Flag

/-- The flags that a purpose owns (`PURPOSE_RESTRICTIONS`). -/
def Purpose.owned : Purpose → List Flag
  | .one => [.blockPixelSync]
  | .two => [.blockBidderRequest]
  | .four => [.removeUserFpd, .removeUserIds]
  | .seven => [.blockAnalyticsReport]
  | .three | .five | .six | .eight | .nine | .ten => []

/-- Special feature 1: the precise location of the user. -/
def preciseGeolocation : FeatureId := 1

/-- The flags that special feature 1 owns. -/
def locationFlags : List Flag := [.maskGeo, .maskDeviceIp]

/-- The state of the seven flags (`PrivacyEnforcementAction`); `true` restricts. -/
structure Restrictions where
  blockBidderRequest : Bool
  blockPixelSync : Bool
  blockAnalyticsReport : Bool
  removeUserFpd : Bool
  removeUserIds : Bool
  maskGeo : Bool
  maskDeviceIp : Bool
  deriving DecidableEq

namespace Restrictions

/-- Every flag set (`restrict_all`): where each enforced auction starts. -/
def restrictAll : Restrictions := ⟨true, true, true, true, true, true, true⟩

/-- Every flag clear (`allow_all`). -/
def allowAll : Restrictions := ⟨false, false, false, false, false, false, false⟩

/-- Whether a flag is set. -/
def isRestricted (r : Restrictions) : Flag → Bool
  | .blockBidderRequest => r.blockBidderRequest
  | .blockPixelSync => r.blockPixelSync
  | .blockAnalyticsReport => r.blockAnalyticsReport
  | .removeUserFpd => r.removeUserFpd
  | .removeUserIds => r.removeUserIds
  | .maskGeo => r.maskGeo
  | .maskDeviceIp => r.maskDeviceIp

/-- The record with one flag clear. -/
def clear (r : Restrictions) : Flag → Restrictions
  | .blockBidderRequest => { r with blockBidderRequest := false }
  | .blockPixelSync => { r with blockPixelSync := false }
  | .blockAnalyticsReport => { r with blockAnalyticsReport := false }
  | .removeUserFpd => { r with removeUserFpd := false }
  | .removeUserIds => { r with removeUserIds := false }
  | .maskGeo => { r with maskGeo := false }
  | .maskDeviceIp => { r with maskDeviceIp := false }

/-- The record with the given flags clear (`allow`, which clears them one by one). -/
def grant (r : Restrictions) (flags : List Flag) : Restrictions := flags.foldl clear r

/-- The flags that are set, in the order of `Flag.all`. -/
def restricted (r : Restrictions) : List Flag := Flag.all.filter r.isRestricted

theorem isRestricted_clear (r : Restrictions) (f g : Flag) :
    (r.clear f).isRestricted g = (r.isRestricted g && decide (g ≠ f)) := by
  cases f <;> cases g <;> simp [clear, isRestricted]

/-- Granting clears exactly the given flags. -/
theorem isRestricted_grant (r : Restrictions) (flags : List Flag) (g : Flag) :
    (r.grant flags).isRestricted g = (r.isRestricted g && !flags.contains g) := by
  unfold grant
  induction flags generalizing r with
  | nil => simp
  | cons f fs ih =>
    rw [List.foldl_cons, ih, isRestricted_clear, Bool.and_assoc]
    congr 1
    by_cases h : g = f <;> simp [h]

@[simp] theorem isRestricted_restrictAll (f : Flag) : restrictAll.isRestricted f = true := by
  cases f <;> rfl

@[simp] theorem isRestricted_allowAll (f : Flag) : allowAll.isRestricted f = false := by
  cases f <;> rfl

/-- The record with given answers. -/
def ofFn (restricted : Flag → Bool) : Restrictions :=
  ⟨restricted .blockBidderRequest, restricted .blockPixelSync, restricted .blockAnalyticsReport,
    restricted .removeUserFpd, restricted .removeUserIds, restricted .maskGeo,
    restricted .maskDeviceIp⟩

/-- The seven answers determine the record. -/
theorem ext_of_isRestricted {r s : Restrictions} (h : ∀ f, r.isRestricted f = s.isRestricted f) :
    r = s := by
  have hget : r.isRestricted = s.isRestricted := funext h
  exact congrArg ofFn hget

end Restrictions

end ConsentGate
