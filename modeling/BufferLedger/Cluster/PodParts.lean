import BufferLedger.Cluster.Provenance

/-!
# Parts of pods

What a pod says about its containers and its place in the cluster. Nothing is decided by it here,
but a pod in which one of these parts has another form is not read.
-/

namespace BufferLedger.PodParts

open Json

/-- Parts that have to have a form but are not kept. -/
def ofForm {α σ : Type} (decode : Json → Decoded Empty α) (names : List String) :
    List (Field Empty σ) :=
  names.map fun name => .optional name decode fun _ s => s

def asAnyObject : Json → Decoded Empty Unit :=
  asObject false [] ()

def asPriority (j : Json) : Decoded Empty Int := do
  let n ← asInteger j
  if -twoTo 31 ≤ n ∧ n < twoTo 31 then return n else .error .mismatch

def specFields : List (Field Empty Unit) :=
  ofForm asString
    ["dnsPolicy", "hostname", "nodeName", "preemptionPolicy", "priorityClassName",
     "restartPolicy", "runtimeClassName", "schedulerName", "serviceAccount",
     "serviceAccountName", "subdomain"] ++
  ofForm asFlag
    ["automountServiceAccountToken", "enableServiceLinks", "hostIPC", "hostNetwork", "hostPID",
     "hostUsers", "setHostnameAsFQDN", "shareProcessNamespace"] ++
  ofForm asInteger ["activeDeadlineSeconds", "terminationGracePeriodSeconds"] ++
  ofForm asPriority ["priority"] ++
  ofForm asTexts ["nodeSelector", "overhead"] ++
  ofForm asAnyObject ["affinity", "dnsConfig", "os", "securityContext"] ++
  ofForm (asEach asAnyObject)
    ["containers", "ephemeralContainers", "hostAliases", "imagePullSecrets", "initContainers",
     "readinessGates", "resourceClaims", "schedulingGates", "tolerations",
     "topologySpreadConstraints", "volumes"]

def asSpec : Json → Decoded Empty Unit :=
  asObject false specFields ()

def statusFields {σ : Type} : List (Field Empty σ) :=
  ofForm asString
    ["hostIP", "message", "nominatedNodeName", "podIP", "qosClass", "reason", "resize"] ++
  ofForm asMoment ["startTime"] ++
  ofForm (asEach asAnyObject)
    ["conditions", "containerStatuses", "ephemeralContainerStatuses", "hostIPs",
     "initContainerStatuses", "podIPs"]

end BufferLedger.PodParts
