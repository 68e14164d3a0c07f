import Bmdwire.Program.DeckSetup
import Bmdwire.Program.UnitNetwork

/-!
# What the network setters return

Both setters return the first read-back that passes their test. The test of the HyperDeck
compares every value that was written (`configuredOk_spec`). The one of the Ultimatte looks at
the interface alone: with an address it must be live on what it is configured with, and what was
written is for the caller to compare (`setNetwork_returns`).
-/

set_option autoImplicit false

namespace Bmdwire

open Library (Json Look poll)

namespace DeckSetup

variable {req : NetworkRequest} {iface : NetworkInterface}

/-- The interface is configured with every value that was asked for. -/
structure Configured (req : NetworkRequest) (iface : NetworkInterface) : Prop where
  address : ∀ a, req.address = some a → iface.address = .str a
  netmask : ∀ m, req.netmask = some m → iface.netmask = .str m
  gateway : ∀ g, req.gateway = some g → iface.gateway = .str g
  dns : ∀ ds, req.dns = some ds → iface.dns = ds.map .str
  dhcp : iface.dhcp = some false

/-- The interface runs on the values it is configured with. -/
structure Live (iface : NetworkInterface) : Prop where
  address : iface.activeAddress.same iface.address = true
  netmask : iface.activeNetmask.same iface.netmask = true

/-- A reply that passes holds what was written, and the interface is live on it. -/
theorem configuredOk_spec {before : NetworkInterface} (hstatic : req.wantDhcp before = false)
    (hok : configuredOk (req.body before) iface = true) (hsettled : iface.settled = true) :
    Configured req iface ∧ Live iface := by
  have hbody : (req.body before).dhcp = false := hstatic
  rw [configuredOk, hbody] at hok
  simp only [Bool.false_eq_true, if_false, Bool.and_eq_true, decide_eq_true_eq] at hok
  obtain ⟨⟨⟨⟨hdhcp, haddress⟩, hnetmask⟩, hgateway⟩, hdns⟩ := hok
  rw [NetworkInterface.settled, if_neg (by simp [hdhcp])] at hsettled
  simp only [Bool.and_eq_true] at hsettled
  obtain ⟨⟨⟨-, hactive⟩, hmask⟩, -⟩ := hsettled
  refine ⟨⟨?_, ?_, ?_, ?_, hdhcp⟩, hactive, hmask⟩
  · intro a ha
    refine Json.same_str ?_
    simpa [NetworkRequest.body, ha] using haddress
  · intro m hm
    refine Json.same_str ?_
    simpa [NetworkRequest.body, hm] using hnetmask
  · intro g hg
    refine Json.same_str ?_
    simpa [NetworkRequest.body, hg] using hgateway
  · intro ds hds
    refine Json.sameAll_str ?_
    simpa [NetworkRequest.body, hds] using hdns

theorem lookBack_done {body : Body} {answer : Answer} (h : lookBack body answer = .done iface) :
    network answer = .ok iface ∧ configuredOk body iface = true ∧ iface.settled = true := by
  unfold lookBack at h
  split at h
  · rename_i after hnetwork
    split at h
    · rename_i hpass
      cases h
      rw [Bool.and_eq_true] at hpass
      exact ⟨hnetwork, hpass⟩
    · cases h
  · cases h
  · cases h
  · cases h

/-- What is returned is a reply of the read-back, and passed. -/
theorem setNetwork_spec {first : Answer} {deck : Body → Answer} {readBack : List Answer}
    (h : setNetwork req first deck readBack = .ok iface) :
    ∃ before, network first = .ok before ∧ ∃ answer ∈ readBack, network answer = .ok iface ∧
      configuredOk (req.body before) iface = true ∧ iface.settled = true := by
  unfold setNetwork at h
  split at h
  · cases h
  · cases hfirst : network first with
    | error e => simp [hfirst, bind, Except.bind] at h
    | ok before =>
      cases hcall : call (deck (req.body before)) with
      | error e => simp [hfirst, hcall, bind, Except.bind] at h
      | ok value =>
        simp only [hfirst, hcall, bind, Except.bind] at h
        obtain ⟨earlier, answer, later, rfl, -, hdone⟩ := Library.poll_eq_ok_iff.mp h
        exact ⟨before, rfl, answer, by simp, lookBack_done hdone⟩

end DeckSetup

namespace Ultimatte

variable {index : ℕ} {req : NetworkRequest} {iface : NetworkInterface}

/-- With an address asked for, the interface is live on what it is configured with. -/
def Running (req : NetworkRequest) (iface : NetworkInterface) : Prop :=
  req.address.isSome = true →
    iface.address ≠ [] ∧ iface.address ≠ unconfigured ∧
      iface.address = iface.staticAddress ∧ iface.netmask = iface.staticNetmask

theorem settled_iff : settled iface req.address.isSome = true ↔ Running req iface := by
  rw [settled, Running]
  cases req.address with
  | none => simp
  | some a => simp [and_assoc]

theorem lookBack_done_iff {session : Session} :
    lookBack index req session = .done iface ↔
      readNetwork index session = .ok iface ∧ Running req iface := by
  rw [lookBack, ← settled_iff]
  cases readNetwork index session with
  | error e => simp
  | ok found =>
    simp only [Except.ok.injEq]
    split
    · rename_i hpass
      constructor
      · intro h
        cases h
        exact ⟨rfl, hpass⟩
      · rintro ⟨rfl, -⟩
        rfl
    · rename_i hpass
      simp only [reduceCtorEq, false_iff, not_and]
      rintro rfl
      exact hpass

theorem lookBack_again_iff {session : Session} :
    lookBack index req session = .again ↔
      ∀ found, readNetwork index session = .ok found → ¬ Running req found := by
  rw [lookBack]
  cases readNetwork index session with
  | error e => simp
  | ok found =>
    simp only [Except.ok.injEq, forall_eq', ← settled_iff]
    split <;> simp_all

/-- What is returned is the first reply of the read-back that can be read and, with an address,
is live. -/
theorem setNetwork_iff {unit : Line → Session} {readBack : List Session} :
    setNetwork index req unit readBack = .ok iface ↔
      req.address.isNone = req.netmask.isNone ∧ req.fields ≠ [] ∧
      (∃ echo, exchange (buildBlock index req.fields) (unit (buildBlock index req.fields)) =
        .ok echo) ∧
      ∃ before session after, readBack = before ++ session :: after ∧
        (∀ s ∈ before, ∀ found, readNetwork index s = .ok found → ¬ Running req found) ∧
        readNetwork index session = .ok iface ∧ Running req iface := by
  rw [setNetwork]
  split
  · rename_i hhalf
    simp [hhalf]
  · rename_i hhalf
    rw [ne_eq, not_not] at hhalf
    split
    · rename_i hnone
      simp [hnone]
    · rename_i hsome
      cases hsent : exchange (buildBlock index req.fields) (unit (buildBlock index req.fields)) with
      | error e => simp [hsent]
      | ok echo =>
        simp only [hsent, Library.poll_eq_ok_iff, lookBack_done_iff, lookBack_again_iff]
        simp [hhalf, hsome]

end Ultimatte

/-- **What the setters return.** The HyperDeck's, with DHCP off: a reply of the read-back that
holds every value that was asked for, and runs on the configured address and netmask. The
Ultimatte's: the first reply of the read-back that can be read and, when the address was set,
runs on the address and netmask it is configured with; a value that was asked for is not looked
for in it. In every other case they raise. -/
theorem setters_return :
    (∀ (req : DeckSetup.NetworkRequest) (first : DeckSetup.Answer)
      (deck : DeckSetup.Body → DeckSetup.Answer) (readBack : List DeckSetup.Answer)
      (before iface : DeckSetup.NetworkInterface),
      DeckSetup.network first = .ok before → req.wantDhcp before = false →
      DeckSetup.setNetwork req first deck readBack = .ok iface →
        (∃ answer ∈ readBack, DeckSetup.network answer = .ok iface) ∧
          DeckSetup.Configured req iface ∧ DeckSetup.Live iface) ∧
    ∀ (index : ℕ) (req : Ultimatte.NetworkRequest) (unit : Line → Ultimatte.Session)
      (readBack : List Ultimatte.Session) (iface : Ultimatte.NetworkInterface),
      Ultimatte.setNetwork index req unit readBack = .ok iface ↔
        req.address.isNone = req.netmask.isNone ∧ req.fields ≠ [] ∧
        (∃ echo, Ultimatte.exchange (Ultimatte.buildBlock index req.fields)
          (unit (Ultimatte.buildBlock index req.fields)) = .ok echo) ∧
        ∃ before session after, readBack = before ++ session :: after ∧
          (∀ s ∈ before, ∀ found, Ultimatte.readNetwork index s = .ok found →
            ¬ Ultimatte.Running req found) ∧
          Ultimatte.readNetwork index session = .ok iface ∧ Ultimatte.Running req iface := by
  refine ⟨?_, fun index req unit readBack iface => Ultimatte.setNetwork_iff⟩
  intro req first deck readBack before iface hfirst hstatic h
  obtain ⟨before', hfirst', answer, hmem, hnetwork, hok, hsettled⟩ := DeckSetup.setNetwork_spec h
  rw [hfirst] at hfirst'
  cases hfirst'
  exact ⟨⟨answer, hmem, hnetwork⟩, DeckSetup.configuredOk_spec hstatic hok hsettled⟩

namespace Ultimatte

/-- The section of a unit with one address that is configured and running. -/
def sectionOf (address gateway : String) : Line :=
  ("NETWORK INTERFACE 0:\nDynamic IP: false\nCurrent Addresses: " ++ address ++
    "\nStatic Addresses: " ++ address ++ "\nStatic Gateway: " ++ gateway ++ "\n\n").toList

/-- The reply that echoes it. -/
def echoOf (address gateway : String) : Session :=
  .replied ("ACK\n\n".toList ++ sectionOf address gateway)

/-- A unit that has not begun to apply the change is still live on its old address, and one that
was given a gateway alone is not looked at again. Both are taken for the outcome. -/
theorem old_values_returned :
    (∃ iface, setNetwork 0
        { address := some "10.0.0.5".toList, netmask := some "255.255.255.0".toList }
        (fun _ => echoOf "" "") [echoOf "10.0.0.9/255.255.255.0" "10.0.0.1"] = .ok iface ∧
      iface.staticAddress = "10.0.0.9".toList) ∧
    ∃ iface, setNetwork 0 { gateway := some "10.0.0.254".toList } (fun _ => echoOf "" "")
        [echoOf "10.0.0.9/255.255.255.0" "10.0.0.1"] = .ok iface ∧
      iface.staticGateway = "10.0.0.1".toList := by
  refine ⟨⟨parseInterface (sectionOf "10.0.0.9/255.255.255.0" "10.0.0.1") 0, ?_, ?_⟩,
    parseInterface (sectionOf "10.0.0.9/255.255.255.0" "10.0.0.1") 0, ?_, ?_⟩
  all_goals decide +kernel

end Ultimatte

namespace DeckSetup

/-- A deck that holds one configuration and runs on it. -/
def holding (address : String) : Answer :=
  .json (.obj [("response", .obj [("interface", .obj [("type", .str "Static"),
    ("manualConfig", .obj [("address", .str address), ("netmask", .str "255.255.255.0"),
      ("gateway", .str "10.0.0.1"), ("dnsServers", .arr [])]),
    ("activeConfig", .obj [("address", .str address), ("netmask", .str "255.255.255.0"),
      ("gateway", .str "10.0.0.1")])])])])

/-- A change of address: the connection fails, then the old address is read, then the new one. -/
theorem setters_return_address :
    ∃ before iface,
      setNetwork { address := some "10.0.0.5" } (holding "10.0.0.9") (fun _ => .empty)
        [.osError, holding "10.0.0.9", holding "10.0.0.5"] = .ok iface ∧
      network (holding "10.0.0.9") = .ok before ∧ Configured { address := some "10.0.0.5" } iface := by
  refine ⟨_, _, rfl, rfl, ?_⟩
  exact (setters_return.1 { address := some "10.0.0.5" } (holding "10.0.0.9") (fun _ => .empty)
    [.osError, holding "10.0.0.9", holding "10.0.0.5"] _ _ rfl rfl rfl).2.1

end DeckSetup

end Bmdwire
