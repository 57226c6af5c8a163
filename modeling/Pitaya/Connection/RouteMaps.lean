import Pitaya.Protocol.Message

/-!
# The two route maps of a session

The constructor of `Connected` keeps the dictionary of the handshake as `routeToCode` and
builds `codeToRoute` from it by inserting the reversed pairs in iteration order; a code
that is already there keeps its first route.
-/

namespace Pitaya.Connection
open Pitaya.Protocol

def codeToRoute (routeToCode : RouteDict) : UnorderedMap ℤ Bytes :=
  UnorderedMap.ofPairs (routeToCode.entries.map fun pair => (pair.2, pair.1))

def InjectiveCodes (routeToCode : RouteDict) : Prop :=
  ∀ r r' code, AList.lookup r routeToCode = some code →
    AList.lookup r' routeToCode = some code → r = r'

theorem mem_reversed_iff {routeToCode : RouteDict} {r : Bytes} {code : ℤ} :
    (code, r) ∈ routeToCode.entries.map (fun pair => (pair.2, pair.1)) ↔
      AList.lookup r routeToCode = some code := by
  rw [← Option.mem_def, AList.mem_lookup_iff, List.mem_map]
  constructor
  · rintro ⟨⟨r', code'⟩, hmem, heq⟩
    obtain ⟨rfl, rfl⟩ := Prod.mk.inj heq
    exact hmem
  · intro hmem
    exact ⟨⟨r, code⟩, hmem, rfl⟩

theorem lookup_of_codeToRoute {routeToCode : RouteDict} {r : Bytes} {code : ℤ}
    (h : AList.lookup code (codeToRoute routeToCode) = some r) :
    AList.lookup r routeToCode = some code :=
  mem_reversed_iff.mp (UnorderedMap.mem_of_lookup_ofPairs h)

theorem lookup_codeToRoute_iff {routeToCode : RouteDict} (hinj : InjectiveCodes routeToCode)
    {r : Bytes} {code : ℤ} :
    AList.lookup code (codeToRoute routeToCode) = some r ↔
      AList.lookup r routeToCode = some code := by
  refine ⟨lookup_of_codeToRoute, fun h => ?_⟩
  refine UnorderedMap.lookup_ofPairs (mem_reversed_iff.mpr h) fun r' h' => ?_
  exact hinj r' r code (mem_reversed_iff.mp h') h

end Pitaya.Connection
