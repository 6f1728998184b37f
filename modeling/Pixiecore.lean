import Pixiecore.Misc.Bytes
import Pixiecore.Misc.Decimal
import Pixiecore.Misc.Tlv
import Pixiecore.Dhcp.Options
import Pixiecore.Dhcp.Packet
import Pixiecore.Misc.NetAddr
import Pixiecore.Dhcp.Proofs.Parse
import Pixiecore.Dhcp.Proofs.Offer
import Pixiecore.Pxe.Packet
import Pixiecore.Pxe.Proofs.Parse
import Pixiecore.Pxe.Proofs.Reply
import Pixiecore.Dhcp.Serve
import Pixiecore.Pxe.Serve
import Pixiecore.Pxe.Proofs.Reflection
import Pixiecore.Tftp.Request
import Pixiecore.Tftp.Transfer
import Pixiecore.Tftp.Proofs.Step
import Pixiecore.Tftp.Proofs.Delivery
import Pixiecore.Tftp.Proofs.Discipline
import Pixiecore.Misc.StopAndWait
import Pixiecore.Tftp.Client
import Pixiecore.Tftp.Proofs.Agreement
import Pixiecore.Tftp.Serve
import Pixiecore.Tftp.Proofs.ErrorLoop
import Pixiecore.Misc.Base64
import Pixiecore.Misc.Prog
import Pixiecore.Misc.Strings
import Pixiecore.Api.Booter
import Pixiecore.Http.Server
import Pixiecore.Http.Proofs.OpenProxy
import Pixiecore.Api.Proofs.Check
import Pixiecore.Http.Proofs.References
import Pixiecore.Api.Static
import Pixiecore.Http.Proofs.Static
import Pixiecore.System.Lookup
import Pixiecore.Tftp.Proofs.Grammar
import Pixiecore.Dhcp.Proofs.Outcome
import Pixiecore.Tftp.Proofs.BlockSize
import Pixiecore.Tftp.Proofs.OtherOptions
import Pixiecore.Pxe.Proofs.Outcome
import Pixiecore.Pxe.Proofs.Pad
import Pixiecore.Dhcp.Buffer
import Pixiecore.Dhcp.Proofs.Buffer
import Pixiecore.Pxe.Buffer
import Pixiecore.Tftp.Buffer
import Pixiecore.Pxe.Proofs.Buffer
import Pixiecore.Tftp.Proofs.Buffer
import Pixiecore.System.OwnDatagram
import Pixiecore.Api.Buffer
import Pixiecore.System.NoPanic
import Pixiecore.Tftp.Proofs.Abort
import Pixiecore.Http.Proofs.Config
import Pixiecore.Http.Proofs.Complete
import Pixiecore.Misc.Machine
import Pixiecore.Tftp.Process
import Pixiecore.Tftp.Proofs.Amplification
import Pixiecore.Tftp.Terminals
import Pixiecore.Tftp.Proofs.Terminals
import Pixiecore.Tftp.Deadline
import Pixiecore.Tftp.Proofs.Deadline
import Pixiecore.Misc.InOrder
import Pixiecore.Tftp.InOrder
import Pixiecore.Tftp.Proofs.InOrder
import Pixiecore.Tftp.Proofs.Success
import Pixiecore.Misc.Shared
import Pixiecore.Api.Proofs.Ownership
import Pixiecore.Http.Plain
import Pixiecore.Http.Proofs.Concurrent
import Pixiecore.Misc.Dialogue
import Pixiecore.Http.Route
import Pixiecore.System.Machine
import Pixiecore.System.Node
import Pixiecore.System.Proofs.Rom
import Pixiecore.System.Proofs.Loader
import Pixiecore.Tftp.Proofs.Lockstep
import Pixiecore.System.Proofs.Boot
import Pixiecore.Pxe.Lan
import Pixiecore.Pxe.Proofs.ReplyLoop
import Pixiecore.System.Main
import Pixiecore.System.Proofs.Work
import Pixiecore.System.Proofs.Modes
