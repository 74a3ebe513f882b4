import AranesLms.Gateway.Services
import AranesLms.Plugins.GatewayServices

/-!
# The services as the core sees them

`list_services` of `gateway_server/gateway.py`, and what `_fetch_gateway_services` of
`src/plugins/endpoints.py` makes of its answer (`fetchGatewayServices_listServices`): one entry for
each service of the registry whose name is not blank, in the order of the names.  The name is
stripped, and the prefix keeps the name as it is.
-/

namespace AranesLms

namespace Gateway

/-- `svc.process.poll() is None`. -/
def Services.isRunning (s : Services) (service : StartedService) : Bool :=
  decide (service.process ∈ s.processes.alive)

def serviceItem (s : Services) (service : String × StartedService) : Json :=
  .obj ⟨[("name", .str service.1),
    ("status", .str (if s.isRunning service.2 then "running" else "stopped")),
    ("mount_prefix", .str (publicPluginPrefix service.1))],
    show ["name", "status", "mount_prefix"].Nodup by decide⟩

def listServices (s : Services) : Json :=
  .obj ⟨[("services", .arr ((sortedItems s.registry).map (serviceItem s)))], List.nodup_singleton _⟩

end Gateway

namespace Plugins

open Gateway

/-- The entry for a service of the registry. -/
def serviceRead (s : Services) (service : String × StartedService) : Option PluginMappingRead :=
  if strip service.1 = "" then none
  else some ⟨strip service.1, strip service.1, publicPluginPrefix service.1, true, true,
    s.isRunning service.2⟩

/-- What the core shows of the gateway's services. -/
def gatewayView (s : Services) : List PluginMappingRead :=
  (sortedItems s.registry).filterMap (serviceRead s)

theorem not_unusable_serviceItem (str : Json → String) (s : Services)
    (service : String × StartedService) : ¬ Unusable str (serviceItem s service) := by
  rintro ⟨d, value, hd, -, -, hnone⟩
  rw [serviceItem, Json.asDict?_obj] at hd
  cases hd
  simp [usableMountPrefix, OrderedDict.get?] at hnone

section

variable {str : Json → String} (hstr : ∀ s, str (.str s) = s) (s : Services)

include hstr

theorem usableEntry_serviceItem (service : String × StartedService) :
    usableEntry str (serviceItem s service) = serviceRead s service := by
  rw [usableEntry, serviceItem, Json.asDict?_obj, serviceRead]
  by_cases hname : strip service.1 = ""
  · simp [OrderedDict.get?, hstr, hname]
  · simp [OrderedDict.get?, hstr, hname, usableMountPrefix]

/-- The core reads every answer of `list_services`. -/
theorem fetchGatewayServices_listServices :
    fetchGatewayServices str (.response 200 (some (listServices s))) = .ok (gatewayView s) := by
  have hread := (@readItems_ok_iff str
    (.arr ((sortedItems s.registry).map (serviceItem s)))).2 ⟨not_false, fun item hitem => ?_⟩
  · rw [Json.asList?_arr, Option.getD_some, List.filterMap_map] at hread
    have hview : (sortedItems s.registry).filterMap (usableEntry str ∘ serviceItem s) =
        gatewayView s := List.filterMap_congr fun e _ => usableEntry_serviceItem hstr s e
    rw [← hview, ← hread, fetchGatewayServices, if_neg (by decide), readServices, listServices,
      Json.asDict?_obj]
    simp [getServices, OrderedDict.get?]
  · rw [Json.asList?_arr, Option.getD_some] at hitem
    obtain ⟨service, -, rfl⟩ := List.mem_map.1 hitem
    exact not_unusable_serviceItem str s service

end

end Plugins

end AranesLms
