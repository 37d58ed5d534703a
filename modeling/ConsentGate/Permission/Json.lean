import ConsentGate.Json.Printer
import ConsentGate.Json.Record
import ConsentGate.Permission

/-!
# Permission documents

The outcome of an auction is written as a JSON array, with the vendor id, the bidder code and the
seven flags of each permission: the output of `tcfcli enforce` in the specification, section 6.
-/

namespace ConsentGate

/-- The document of a restrictions record. -/
def Restrictions.toJson (r : Restrictions) : Json :=
  .record
    [("block_bidder_request", .bool r.blockBidderRequest),
      ("block_pixel_sync", .bool r.blockPixelSync),
      ("block_analytics_report", .bool r.blockAnalyticsReport),
      ("remove_user_fpd", .bool r.removeUserFpd), ("remove_user_ids", .bool r.removeUserIds),
      ("mask_geo", .bool r.maskGeo), ("mask_device_ip", .bool r.maskDeviceIp)]

/-- The document of a permission. -/
def Permission.toJson (p : Permission) : Json :=
  .record
    [("vendor_id", .ofOption .ofWord p.vendor), ("bidder", .ofOption .ofString p.bidder),
      ("action", p.restrictions.toJson)]

/-- The document of the permissions of an auction. -/
def permissionsJson (permissions : List Permission) : Json :=
  .array (permissions.map Permission.toJson)

end ConsentGate
