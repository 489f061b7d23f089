import Ibdxnet.Connection.DiscoveryManager
import Ibdxnet.Sys.AddressIPV4

/-!
# From the node configuration to the first discovery

`NodeConfStringReader` splits its string at commas, an `Entry` resolves its
hostname, and the discovery manager asks the addresses of the entries that are
not its own.  What the operating system knows of names and interfaces is a
parameter.

    the reader of a string and the reader of arguments agree   (read_eq)
    the first discovery asks the addresses the listed names
      resolve to, in their order                               (asks_listed)
-/

namespace Ibdxnet.Con

open Sys (AddressException AddressIPV4 InAddr cStr inetNtoa)

/-- What `gethostbyname` returns. -/
structure HostEnt where
  /-- `h_addrtype == AF_INET` -/
  afInet : Bool
  addr : InAddr
  deriving DecidableEq, Repr

/-- An address of a network interface. -/
structure IfAddr where
  name : List Char
  /-- `sa_family == AF_INET` -/
  afInet : Bool
  addr : InAddr
  deriving DecidableEq, Repr

/-- What the operating system is asked. -/
structure Network where
  gethostname : Option (List Char)
  gethostbyname : List Char → Option HostEnt
  getifaddrs : List IfAddr

namespace Network

variable (net : Network)

/-- Without the interface the address is `INVALID_ADDRESS`. -/
def resolveIPForInterface (iface : List Char) : AddressIPV4 :=
  let ip : InAddr :=
    match net.getifaddrs.find? fun ptr => ptr.afInet && ptr.name = cStr iface with
    | some ptr => ptr.addr
    | none => { b₀ := 0xFF, b₁ := 0xFF, b₂ := 0xFF, b₃ := 0xFF }
  .new ip.ntohl AddressIPV4.invalidPort

def getHostname : Except AddressException (List Char) :=
  match net.gethostname with
  | some hostname => .ok hostname
  | none => .error (.systemException "Buffer too small for getting own hostname")

def resolveHostname (hostname : List Char) : Except AddressException AddressIPV4 :=
  match net.gethostname with
  | none => .error (.systemException "Getting own hostname failed")
  | some ownHostname =>
    match net.gethostbyname (cStr hostname) with
    | none => .error (.systemException "ResolveHostname for %s: No such host")
    | some he =>
      if he.afInet then
        -- exception for own hostname: we can't resolve that using DNS
        if ownHostname = cStr hostname then
          -- assuming eth0 as default iface
          .ok (net.resolveIPForInterface "eth0".toList)
        else
          AddressIPV4.ofString (inetNtoa he.addr)
      else
        .error (.systemException "ResolveHostname (%s): gethostbyname addrtype != AF_INET")

/-- The constructor of `NodeConf::Entry` with a hostname. -/
def entry (hostname : List Char) : Except AddressException Entry :=
  (net.resolveHostname hostname).map fun address =>
    { hostname := String.ofList hostname, address := address.address }

/-- `NodeConf::AddEntry` -/
def addEntry (conf : List Entry) (hostname : List Char) : Except AddressException (List Entry) :=
  (net.entry hostname).map fun entry => conf ++ [entry]

/-- `NodeConfArgListReader::Read` -/
def readArgs (args : List (List Char)) : Except AddressException (List Entry) :=
  args.foldlM net.addEntry []

/-- `NodeConfStringReader::Read` -/
def readString (str : List Char) : Except AddressException (List Entry) :=
  match Sys.StringUtils.split str [','] true with
  | .error e => .error (.stdException e)
  | .ok tokens => tokens.foldlM net.addEntry []

/-- The names in a configuration string. -/
def names (str : List Char) : List (List Char) := (str.splitOn ',').filter (· ≠ [])

/-! ## The two readers -/

/-- **Both readers read the same configuration**, or fail with the same exception:
empty parts of the string are left out. -/
theorem read_eq (str : List Char) : net.readString str = net.readArgs (names str) := by
  rw [readString, Sys.StringUtils.split_singleton]
  rfl

/-- Read from a string, the arguments are what they were. -/
theorem readString_intercalate {args : List (List Char)} (hcomma : ∀ arg ∈ args, ',' ∉ arg)
    (hne : ∀ arg ∈ args, arg ≠ []) :
    net.readString ([','].intercalate args) = net.readArgs args := by
  rw [readString, Sys.StringUtils.split_intercalate hcomma hne]
  rfl

variable {net} {str hostname : List Char} {args : List (List Char)} {conf : List Entry}

/-- A configuration that was read has an entry for each name. -/
theorem readArgs_eq_ok (h : net.readArgs args = .ok conf) :
    List.Forall₂ (fun arg entry => net.entry arg = .ok entry) args conf := by
  have hfold : ∀ (args : List (List Char)) (front : List Entry),
      args.foldlM net.addEntry front = .ok conf →
      ∃ back, conf = front ++ back ∧
        List.Forall₂ (fun arg entry => net.entry arg = .ok entry) args back := by
    intro args
    induction args with
    | nil =>
      intro front hfront
      exact ⟨[], (Except.ok.inj hfront).symm.trans (List.append_nil front).symm, .nil⟩
    | cons arg args ih =>
      intro front hfront
      rw [List.foldlM_cons] at hfront
      cases hentry : net.entry arg with
      | error e =>
        rw [addEntry, hentry] at hfront
        cases hfront
      | ok entry =>
        rw [addEntry, hentry] at hfront
        obtain ⟨back, hconf, hback⟩ := ih (front ++ [entry]) hfront
        refine ⟨entry :: back, ?_, .cons hentry hback⟩
        rw [hconf, List.append_assoc]
        rfl
  obtain ⟨back, hconf, hback⟩ := hfold args [] h
  rwa [hconf]

/-! ## What is asked -/

/-- The address of a host that is not the own one is read back from its string. -/
theorem resolveHostname_other {ownHostname : List Char} (hown : net.gethostname = some ownHostname)
    (hne : ownHostname ≠ cStr hostname) {he : HostEnt}
    (hhost : net.gethostbyname (cStr hostname) = some he) (hinet : he.afInet = true) :
    net.resolveHostname hostname =
      .ok { address := he.addr.ntohl, port := 0, addressStr := inetNtoa he.addr } := by
  rw [resolveHostname, hown]
  simp only [hhost, hinet, if_neg hne, if_true]
  exact (AddressIPV4.ofString_inetNtoa he.addr).1

theorem resolveHostname_eq_ok {ownHostname : List Char} (hown : net.gethostname = some ownHostname)
    (hne : ownHostname ≠ cStr hostname) {address : AddressIPV4}
    (h : net.resolveHostname hostname = .ok address) :
    ∃ he, net.gethostbyname (cStr hostname) = some he ∧ he.afInet = true ∧
      address.address = he.addr.ntohl := by
  cases hhost : net.gethostbyname (cStr hostname) with
  | none =>
    rw [resolveHostname, hown] at h
    simp only [hhost] at h
    cases h
  | some he =>
    by_cases hinet : he.afInet = true
    · rw [resolveHostname_other hown hne hhost hinet] at h
      obtain rfl := Except.ok.inj h
      exact ⟨he, rfl, hinet, rfl⟩
    · rw [resolveHostname, hown] at h
      simp only [hhost, if_neg hinet] at h
      cases h

/-- The characters of a name are characters of the string. -/
theorem mem_of_mem_names {name : List Char} (hname : name ∈ names str) {c : Char} (hc : c ∈ name) :
    c ∈ str := by
  have hjoin : ∀ parts : List (List Char), name ∈ parts → c ∈ [','].intercalate parts := by
    intro parts hmem
    induction parts with
    | nil => cases hmem
    | cons part parts ih =>
      cases parts with
      | nil =>
        rw [List.intercalate_singleton, ← List.mem_singleton.mp hmem]
        exact hc
      | cons next rest =>
        rw [List.intercalate_cons_cons]
        rcases List.mem_cons.mp hmem with rfl | hmem
        · exact List.mem_append_left _ (List.mem_append_left _ hc)
        · exact List.mem_append_right _ (ih hmem)
  have hsplit := hjoin (str.splitOn ',') (List.mem_of_mem_filter hname)
  rwa [List.intercalate_splitOn] at hsplit

/-- The requests of a first discovery. -/
theorem executeDiscovery_new (ownHostname : String) (conf : List Entry) :
    (DiscoveryManager.new ownHostname conf).executeDiscovery =
      some ((conf.filter fun entry => entry.hostname ≠ ownHostname).map Entry.address) := by
  rw [DiscoveryManager.executeDiscovery, DiscoveryManager.new]
  generalize conf.filter _ = entries
  induction entries with
  | nil => rfl
  | cons entry entries ih =>
    rw [List.map_cons, List.mapM_cons, ih]
    rfl

/-- The entry of a name. -/
theorem entry_eq_ok {entry : Entry} (h : net.entry hostname = .ok entry) :
    ∃ address, net.resolveHostname hostname = .ok address ∧
      entry = { hostname := String.ofList hostname, address := address.address } := by
  rw [Network.entry] at h
  cases hresolve : net.resolveHostname hostname with
  | error e =>
    rw [hresolve] at h
    cases h
  | ok address =>
    rw [hresolve] at h
    exact ⟨address, rfl, (Except.ok.inj h).symm⟩

/-- The entries that are not the own one have the addresses of their names. -/
theorem addresses_of_entries {ownHostname : List Char} (hown : net.gethostname = some ownHostname)
    {listed : List (List Char)} (hnames : ∀ name ∈ listed, cStr name = name)
    (h : List.Forall₂ (fun name entry => net.entry name = .ok entry) listed conf) :
    List.Forall₂ (fun name ip => ∃ he, net.gethostbyname name = some he ∧ he.afInet = true ∧
        ip = he.addr.ntohl)
      (listed.filter (· ≠ ownHostname))
      ((conf.filter fun entry => entry.hostname ≠ String.ofList ownHostname).map
        Entry.address) := by
  induction h with
  | nil => exact .nil
  | @cons name entry listed conf hentry _ ih =>
    obtain ⟨hname, hlisted⟩ := List.forall_mem_cons.mp hnames
    have hrest := ih hlisted
    obtain ⟨address, hresolve, rfl⟩ := entry_eq_ok hentry
    by_cases hself : name = ownHostname
    · subst hself
      rw [List.filter_cons_of_neg (by simp), List.filter_cons_of_neg (by simp)]
      exact hrest
    · have hhost : String.ofList name ≠ String.ofList ownHostname := by
        intro heq
        exact hself (String.ofList_inj.mp heq)
      have hne : ownHostname ≠ cStr name := by
        rw [hname]
        exact Ne.symm hself
      obtain ⟨he, hfound, hinet, haddress⟩ := resolveHostname_eq_ok hown hne hresolve
      rw [hname] at hfound
      rw [List.filter_cons_of_pos (by simpa using hself),
        List.filter_cons_of_pos (by simpa using hhost), List.map_cons]
      exact .cons ⟨he, hfound, hinet, haddress⟩ hrest

/-- **The first discovery asks the addresses of the names listed**, the own one
left out, each the address the host has in network byte order. -/
theorem asks_listed {ownHostname : List Char} (hown : net.gethostname = some ownHostname)
    (hnul : Char.ofNat 0 ∉ str) (h : net.readString str = .ok conf) :
    ∃ ips, (DiscoveryManager.new (String.ofList ownHostname) conf).executeDiscovery = some ips ∧
      List.Forall₂ (fun name ip => ∃ he, net.gethostbyname name = some he ∧ he.afInet = true ∧
        ip = he.addr.ntohl) ((names str).filter (· ≠ ownHostname)) ips := by
  refine ⟨_, executeDiscovery_new _ conf, addresses_of_entries hown ?_ ?_⟩
  · intro name hname
    apply AddressIPV4.cStr_eq_self
    intro hmem
    exact hnul (mem_of_mem_names hname hmem)
  · apply readArgs_eq_ok
    rw [← h, readString, Sys.StringUtils.split_singleton]
    rfl

/-! ### Three nodes, of which the second is this one -/

def exampleNetwork : Network where
  gethostname := some "b".toList
  gethostbyname name :=
    if name = "a".toList then some { afInet := true, addr := ⟨10, 0, 0, 1⟩ }
    else if name = "b".toList then some { afInet := true, addr := ⟨127, 0, 1, 1⟩ }
    else if name = "c".toList then some { afInet := true, addr := ⟨10, 0, 0, 3⟩ }
    else none
  getifaddrs := [{ name := "eth0".toList, afInet := true, addr := ⟨10, 0, 0, 2⟩ }]

def exampleConf : List Entry :=
  [{ hostname := "a", address := 0x0A000001 }, { hostname := "b", address := 0x0A000002 },
    { hostname := "c", address := 0x0A000003 }]

theorem exampleNetwork_readString :
    exampleNetwork.readString "a,,b,c".toList = .ok exampleConf := by
  have ha : exampleNetwork.resolveHostname "a".toList = _ :=
    resolveHostname_other rfl (by decide) rfl rfl
  have hc : exampleNetwork.resolveHostname "c".toList = _ :=
    resolveHostname_other rfl (by decide) rfl rfl
  have hb : exampleNetwork.resolveHostname "b".toList = .ok (.new 0x0A000002 0xFFFF) := rfl
  have hnames : "a,,b,c".toList.splitOn ',' = ["a".toList, [], "b".toList, "c".toList] := by decide
  rw [readString, Sys.StringUtils.split_singleton, hnames]
  show ["a".toList, "b".toList, "c".toList].foldlM exampleNetwork.addEntry [] = _
  simp only [List.foldlM_cons, List.foldlM_nil, addEntry, Network.entry, ha, hb, hc]
  rfl

theorem asks_listed_example :
    ∃ ips, (DiscoveryManager.new "b" exampleConf).executeDiscovery = some ips ∧
      List.Forall₂ (fun name ip => ∃ he, exampleNetwork.gethostbyname name = some he ∧
        he.afInet = true ∧ ip = he.addr.ntohl)
        ((names "a,,b,c".toList).filter (· ≠ "b".toList)) ips :=
  @asks_listed _ _ _ "b".toList rfl (by decide) exampleNetwork_readString

end Network

end Ibdxnet.Con
