import Netp2.Routing.RuleScan

/-!
# Access by client address

A rule with a client restriction is selected only for an address that one of its entries accepts.
Acceptance is decided on text, and `ipInCidr_entry` says what it is worth for canonical entries:
the entry contains the address, or it is a `/16` block that overmatches it.

So a selected rule may admit an address outside all of its blocks, and `admits_only_contained_iff`
says when that happens.  Which of several rules of equal priority is selected is up to the sorting
function, hence both sides speak about every rule that some sorting function selects.
-/

namespace Netp2.Routing

open ByteString

/-- The rule restricts the client address, and every entry is canonical. -/
def CanonicallyRestricted (r : RouteRule) : Prop :=
  r.allowedClientCidrs ≠ [] ∧ ∀ cidr ∈ r.allowedClientCidrs, ∃ e : CidrEntry, e.text = cidr

def ContainsClient (r : RouteRule) (ip : Ipv4) : Prop :=
  ∃ e : CidrEntry, e.text ∈ r.allowedClientCidrs ∧ e.Contains ip

def OvermatchesClient (r : RouteRule) (ip : Ipv4) : Prop :=
  ∃ e : CidrEntry, e.text ∈ r.allowedClientCidrs ∧ e.Overmatches ip

/-- An eligible rule with canonical entries contains the client or overmatches it. -/
lemma contains_or_overmatches {r : RouteRule} {host : ByteString} {ip : Ipv4}
    (hr : CanonicallyRestricted r) (helig : Eligible host ip.text r) :
    ContainsClient r ip ∨ OvermatchesClient r ip := by
  rcases helig.2 with hempty | ⟨cidr, hcidr, hacc⟩
  · exact absurd hempty hr.1
  · obtain ⟨e, rfl⟩ := hr.2 cidr hcidr
    exact (ipInCidr_entry hacc).imp (fun h => ⟨e, hcidr, h⟩) (fun h => ⟨e, hcidr, h⟩)

/-- **When only contained clients are admitted.**  Whatever order `std::sort` gives to equal
priorities, a selected rule with canonical entries has one that contains the client, exactly when
every selectable rule with a `/16` entry overmatching the client also has an entry containing it. -/
theorem admits_only_contained_iff (rules : List RouteRule) (host path : ByteString) (ip : Ipv4) :
    (∀ S r, (finalized S rules).Selects host path ip.text r →
        CanonicallyRestricted r → ContainsClient r ip)
      ↔ ∀ r, Selectable rules host path ip.text r → CanonicallyRestricted r →
          OvermatchesClient r ip → ContainsClient r ip := by
  simp only [finalized]
  rw [forall_selects_iff, addedRules_map_addRule]
  constructor
  · intro h r hsel hr _
    exact h r hsel hr
  · intro h r hsel hr
    rcases contains_or_overmatches hr hsel.2.1 with hcontains | hover
    · exact hcontains
    · exact h r hsel hr hover

def internalRule : RouteRule where
  hostPattern := ascii "internal.example.com"
  pathPrefix := ascii "/admin"
  allowedClientCidrs := [ascii "10.1.0.0/16"]

/-- **A client outside the only allowed block is admitted**: `10.12.3.4` for `10.1.0.0/16`. -/
theorem foreign_client_admitted :
    ¬ ∀ S r, (finalized S [internalRule]).Selects (ascii "internal.example.com")
          (ascii "/admin") (Ipv4.text ⟨10, 12, 3, 4⟩) r →
        CanonicallyRestricted r → ContainsClient r ⟨10, 12, 3, 4⟩ := by
  intro h
  have hsel : (finalized (.insertion fun _ => false) [internalRule]).selectedRule
      (ascii "internal.example.com") (ascii "/admin") (Ipv4.text ⟨10, 12, 3, 4⟩)
        = some internalRule := by decide +kernel
  have htext : (CidrEntry.block ⟨10, 1, 0, 0⟩ 16).text = ascii "10.1.0.0/16" := by decide
  have hcanon : CanonicallyRestricted internalRule := by
    refine ⟨by decide, fun cidr hcidr => ⟨.block ⟨10, 1, 0, 0⟩ 16, ?_⟩⟩
    rw [htext, List.mem_singleton.mp hcidr]
  obtain ⟨e, he, hcontains⟩ := h _ _ (selects_iff.mpr hsel) hcanon
  -- the only entry is the block, and its second octet differs
  have hblock : e = .block ⟨10, 1, 0, 0⟩ 16 :=
    CidrEntry.text_inj (htext ▸ List.mem_singleton.mp he)
  rw [hblock] at hcontains
  exact absurd hcontains (by simp only [CidrEntry.Contains]; decide)

end Netp2.Routing
