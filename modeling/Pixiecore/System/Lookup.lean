import Pixiecore.Dhcp.Proofs.Offer
import Pixiecore.Dhcp.Serve
import Pixiecore.Http.Proofs.References

/-!
# One key for a machine

A machine that boots in API mode is looked up twice, by the ProxyDHCP server under the
hardware address of its request and by the HTTP server under the address that pxelinux puts
into a URL. Both end in the same query to the API server, and they agree on its response.
-/

namespace Pixiecore

open Api Http

/-- One round of the loop in `ServeProxyDHCP`, with the booter's own way to find out whether a
machine should boot. -/
def Dhcp.serveProxyDHCPWith (booter : Booter)
    (interfaceByIndex : Int → Except Bytes Dhcp.Interface) (buf : Bytes) :
    Dhcp.Received → Program (Bytes × Option Dhcp.Reply)
  | .error _ => pure (buf, none)
  | .datagram data ifIndex srcIP srcPort =>
    match Dhcp.parseDHCP (readFrom buf data).2 with
    | .error _ => pure ((readFrom buf data).1, none)
    | .ok req => do
      let verdict ← booter.shouldBoot req.mac
      pure (Dhcp.serveProxyDHCPRound ⟨fun _ => verdict, interfaceByIndex⟩ buf
        (.datagram data ifIndex srcIP srcPort))

section Run

variable {W : Type} (out : Outside W) (box : Secretbox) (key : Key)

/-! ## Queries to the API server -/

/-- Anything but a query to the API server. -/
def NoQuery : Question → Prop
  | .apiGet _ => False
  | _ => True

theorem apiGets_append (es es' : List Asked) : apiGets (es ++ es') = apiGets es ++ apiGets es' :=
  List.filterMap_append

theorem apiGets_of_noQuery {α : Type} {p : Program α} (asks : p.Asks NoQuery) (w : World W) :
    apiGets (p.run (answer out box key) w).1 = [] := by
  rw [apiGets, List.filterMap_eq_nil_iff]
  intro e member
  have other := asks.run (answer out box key) w e member
  split
  · next url isQuery =>
    rw [isQuery] at other
    exact other.elim
  · rfl

/-- What comes after a program counts for nothing when it makes no query. -/
theorem apiGets_bind {α β : Type} (p : Program α) (f : α → Program β)
    (rest : ∀ a, (f a).Asks NoQuery) (w : World W) :
    apiGets ((p >>= f).run (answer out box key) w).1 =
      apiGets (p.run (answer out box key) w).1 := by
  rw [Prog.run_bind]
  simp only [apiGets_append, apiGets_of_noQuery out box key (rest _), List.append_nil]

theorem asks_encodeInitrds (s : Slice) (is : List Nat) : (encodeInitrds s is).Asks NoQuery := by
  induction is with
  | nil => exact Prog.asks_pure _
  | cons i is ih =>
    apply (Prog.asks_ask1 trivial).bind
    intro id
    apply (Prog.asks_ask1 trivial).bind
    intro _
    exact ih

theorem asks_readElems (s : Slice) (is : List Nat) : (readElems s is).Asks NoQuery := by
  induction is with
  | nil => exact Prog.asks_pure _
  | cons i is ih =>
    apply (Prog.asks_ask1 trivial).bind
    intro x
    apply ih.bind
    intro xs
    exact Prog.asks_pure _

/-- `getSpec` makes its one query and then judges the answer. -/
theorem run_getSpec (b : RemoteBooter) (hw : Bytes) (w : World W) :
    (b.getSpec hw).run (answer out box key) w =
      ([asked (.apiGet (b.bootURL hw)) (out.apiGet w.outside (b.bootURL hw)).1],
        (out.apiGet w.outside (b.bootURL hw)).1.bind (b.checkSpec (b.bootURL hw)),
        { w with outside := (out.apiGet w.outside (b.bootURL hw)).2 }) := by
  simp only [RemoteBooter.getSpec, clientGet, Prog.run_bind, Prog.run_ask1, answer]
  cases (out.apiGet w.outside (b.bootURL hw)).1 with
  | error err => rfl
  | ok resp => rfl

/-- `ShouldBoot` asks for the machine, and says yes when the response passes the checks. -/
theorem run_shouldBoot (b : RemoteBooter) (hw : Bytes) (w : World W) :
    apiGets ((b.shouldBoot hw).run (answer out box key) w).1 = [b.bootURL hw] ∧
      (((b.shouldBoot hw).run (answer out box key) w).2.1 = .ok () ↔
        ∃ r, (out.apiGet w.outside (b.bootURL hw)).1.bind (b.checkSpec (b.bootURL hw)) =
          .ok r) := by
  rw [RemoteBooter.shouldBoot, Prog.run_bind, run_getSpec]
  cases (out.apiGet w.outside (b.bootURL hw)).1.bind (b.checkSpec (b.bootURL hw)) with
  | error err =>
    refine ⟨rfl, ?_⟩
    constructor
    · intro impossible
      cases impossible
    · intro ⟨r, impossible⟩
      cases impossible
  | ok r => exact ⟨rfl, fun _ => ⟨r, rfl⟩, fun _ => rfl⟩

theorem apiGets_bootSpec (b : RemoteBooter) (hw : Bytes) (w : World W) :
    apiGets ((b.bootSpec hw).run (answer out box key) w).1 = [b.bootURL hw] := by
  rw [RemoteBooter.bootSpec, apiGets_bind out box key, run_getSpec]
  · rfl
  intro spec
  cases spec with
  | error err => exact Prog.asks_pure _
  | ok r =>
    apply (asks_signURL trivial (fun _ _ => trivial) r.kernel).bind
    intro kernel
    cases kernel with
    | error err => exact Prog.asks_pure _
    | ok kernel =>
      apply (asks_signURLs trivial (fun _ _ => trivial) r.initrd).bind
      intro ids
      cases ids with
      | error err => exact Prog.asks_pure _
      | ok ids =>
        apply (Prog.asks_ask1 trivial).bind
        intro initrd
        exact Prog.asks_pure _

theorem apiGets_configFor (b : RemoteBooter) (ldlinux mac : Bytes) (w : World W) :
    apiGets (((Server.mk b.booter ldlinux).configFor mac).run (answer out box key) w).1 =
      [b.bootURL mac] := by
  rw [Server.configFor, apiGets_bind out box key]
  · exact apiGets_bootSpec out box key b mac w
  intro spec
  cases spec with
  | error err => exact Prog.asks_pure _
  | ok spec =>
    apply (asks_encodeInitrds _ _).bind
    intro _
    apply (asks_readElems _ _).bind
    intro initrd
    exact Prog.asks_pure _

/-- With working randomness, `BootSpec` returns a spec when the response passes the checks. -/
theorem run_bootSpec_ok_iff (b : RemoteBooter) (works : RandomnessWorks out) (hw : Bytes)
    (w : World W) :
    (∃ spec, ((b.bootSpec hw).run (answer out box key) w).2.1 = .ok spec) ↔
      ∃ r, (out.apiGet w.outside (b.bootURL hw)).1.bind (b.checkSpec (b.bootURL hw)) = .ok r := by
  constructor
  · intro booted
    obtain ⟨spec, returned⟩ := booted
    rw [RemoteBooter.bootSpec, Prog.run_bind, run_getSpec] at returned
    cases judged : (out.apiGet w.outside (b.bootURL hw)).1.bind (b.checkSpec (b.bootURL hw)) with
    | error err =>
      rw [judged] at returned
      cases returned
    | ok r => exact ⟨r, rfl⟩
  · intro accepted
    obtain ⟨r, judged⟩ := accepted
    cases answered : (out.apiGet w.outside (b.bootURL hw)).1 with
    | error err =>
      rw [answered] at judged
      cases judged
    | ok resp =>
      rw [answered] at judged
      obtain ⟨kernel, ids, w', booted, _⟩ := Http.run_bootSpec out box key b works w hw
        (Prod.ext answered rfl) judged
      exact ⟨_, congrArg Prod.fst booted⟩

/-! ## The two lookups -/

/-- An accepted request makes the server ask the booter, and nothing else is asked. -/
theorem run_serveProxyDHCPWith (booter : Booter)
    (interfaceByIndex : Int → Except Bytes Dhcp.Interface) {buf data : Bytes} {ifIndex : Int}
    {srcIP : IPv4} {srcPort : UInt16} {p : Dhcp.DHCPPacket}
    (accepted : Dhcp.parseDHCP (data.take buf.length) = .ok p) (w : World W) :
    ((Dhcp.serveProxyDHCPWith booter interfaceByIndex buf
        (.datagram data ifIndex srcIP srcPort)).run (answer out box key) w).1 =
      ((booter.shouldBoot p.mac).run (answer out box key) w).1 := by
  rw [← readFrom_snd] at accepted
  simp only [Dhcp.serveProxyDHCPWith, accepted, Prog.run_bind, Prog.run_pure, List.append_nil]

theorem base_pxelinuxCfg {name mac : Bytes} (written : name.map lowerCase = dashed mac) :
    base (ascii "/pxelinux.cfg/01-" ++ name) = ascii "01-" ++ name := by
  have path : ascii "/pxelinux.cfg/01-" ++ name =
      ascii "/pxelinux.cfg" ++ [slash] ++ (ascii "01-" ++ name) := by
    rw [← List.append_assoc]
    rfl
  rw [path]
  apply base_append
  · exact List.cons_ne_nil _ _
  · intro member
    rcases List.mem_append.mp member with front | inName
    · exact absurd front (by decide)
    · exact notMem_of_dashed written inName

/-- The ProxyDHCP server and the HTTP server look a machine up under the same URL, and for the
same response of the API server the one is told to boot the machine just when the other gets a
boot spec for it. -/
theorem lookups_agree (b : RemoteBooter) (ldlinux : Bytes)
    (interfaceByIndex : Int → Except Bytes Dhcp.Interface) (buf data : Bytes) (ifIndex : Int)
    (srcIP : IPv4) (srcPort : UInt16) (mac name : Bytes) (p : Dhcp.DHCPPacket)
    (size : mac.length = 6) (written : name.map lowerCase = dashed mac)
    (accepted : Dhcp.parseDHCP (data.take buf.length) = .ok p)
    (chaddr : slice (data.take buf.length) 28 34 = mac) (w w' : World W) :
    let request := (Dhcp.serveProxyDHCPWith b.booter interfaceByIndex buf
      (.datagram data ifIndex srcIP srcPort)).run (answer out box key) w
    let config := ((Server.mk b.booter ldlinux).serve
      (.pxelinuxConfig (ascii "/pxelinux.cfg/01-" ++ name))).run (answer out box key) w'
    apiGets request.1 = [b.bootURL mac] ∧ apiGets config.1 = [b.bootURL mac] ∧
      (RandomnessWorks out →
        (out.apiGet w.outside (b.bootURL mac)).1 = (out.apiGet w'.outside (b.bootURL mac)).1 →
        (((b.booter.shouldBoot p.mac).run (answer out box key) w).2.1 = .ok () ↔
          ∃ spec, ((b.booter.bootSpec mac).run (answer out box key) w').2.1 = .ok spec)) := by
  intro request config
  have isMac : p.mac = mac := by
    obtain ⟨-, -, -, -, -, -, same⟩ := (Dhcp.parseDHCP_ok_iff _ p).mp accepted
    rw [same]
    exact chaddr
  have boot := run_shouldBoot out box key b mac w
  refine ⟨?_, ?_, ?_⟩
  · simp only [request, run_serveProxyDHCPWith out box key b.booter interfaceByIndex accepted,
      isMac]
    exact boot.1
  · have named : (ascii "01-").isPrefixOf (base (ascii "/pxelinux.cfg/01-" ++ name)) = true := by
      rw [base_pxelinuxCfg written]
      rfl
    have parsed : parseMAC ((base (ascii "/pxelinux.cfg/01-" ++ name)).drop 3) = some mac := by
      rw [base_pxelinuxCfg written]
      exact parseMAC_dashed size written
    simp only [config, Server.serve, pxelinuxConfig_eq _ named parsed]
    exact apiGets_configFor out box key b ldlinux mac w'
  · intro works same
    rw [isMac]
    exact boot.2.trans (by rw [same]; exact (run_bootSpec_ok_iff out box key b works mac w').symm)

end Run

/-- A machine sends a DHCPDISCOVER and, from pxelinux, asks for its configuration. -/
theorem lookups_agree_discover :
    let request := (Dhcp.serveProxyDHCPWith twoFiles.booter (fun _ => .error [])
      (List.replicate 1024 0) (.datagram (Dhcp.discover 1 6) 2 ⟨0, 0, 0, 0⟩ 68)).run
        (answer countingOutside clearBox zeroKey) ⟨0, []⟩
    let config :=
      serveTwoFiles ⟨7, []⟩ (.pxelinuxConfig (ascii "/pxelinux.cfg/01-02-00-00-00-00-09"))
    apiGets request.1 = [ascii "http://api/v1/boot/02:00:00:00:00:09"] ∧
      apiGets config.1 = [ascii "http://api/v1/boot/02:00:00:00:00:09"] ∧
      (((twoFiles.booter.shouldBoot [2, 0, 0, 0, 0, 9]).run
          (answer countingOutside clearBox zeroKey) ⟨0, []⟩).2.1 = .ok () ↔
        ∃ spec, ((twoFiles.booter.bootSpec [2, 0, 0, 0, 0, 9]).run
          (answer countingOutside clearBox zeroKey) ⟨7, []⟩).2.1 = .ok spec) := by
  have agree := lookups_agree countingOutside clearBox zeroKey twoFiles [] (fun _ => .error [])
    (List.replicate 1024 0) (Dhcp.discover 1 6) 2 ⟨0, 0, 0, 0⟩ 68 [2, 0, 0, 0, 0, 9]
    (ascii "02-00-00-00-00-09") Dhcp.discovered rfl (by decide) (by decide +kernel)
    (by decide +kernel) ⟨0, []⟩ ⟨7, []⟩
  exact ⟨agree.1, agree.2.1, agree.2.2 randomnessWorks_countingOutside rfl⟩

end Pixiecore
