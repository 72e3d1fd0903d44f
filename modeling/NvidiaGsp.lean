import NvidiaGsp.Lib.Calls
import NvidiaGsp.Lib.Runs
import NvidiaGsp.Lib.Counts
import NvidiaGsp.Rm.Names
import NvidiaGsp.Rm.NamesSpec
import NvidiaGsp.Rm.NamesInv
import NvidiaGsp.Rm.NamesRuns
import NvidiaGsp.Rm.WaitPolicy
import NvidiaGsp.Rm.WaitPolicySpec
import NvidiaGsp.Mst.Topology
import NvidiaGsp.Mst.Registry
import NvidiaGsp.Mst.RegistrySpec
import NvidiaGsp.Mst.RegistryInv
import NvidiaGsp.Mst.RegistrySync
import NvidiaGsp.Mst.RegistryRuns
import NvidiaGsp.Mst.RegistryExact
import NvidiaGsp.Mst.Budget
import NvidiaGsp.Mst.Transaction
import NvidiaGsp.Mst.TransactionSpec
import NvidiaGsp.Mst.TransactionRuns
import NvidiaGsp.Lib.Bytes
import NvidiaGsp.Gsp.Message
import NvidiaGsp.Gsp.Codec
import NvidiaGsp.Gsp.RingCopy
import NvidiaGsp.Lib.Cyclic
import NvidiaGsp.Gsp.Ring
import NvidiaGsp.Lib.Triples
import NvidiaGsp.Gsp.Transport
import NvidiaGsp.Gsp.TransportSpec
import NvidiaGsp.Gsp.TransportSend
import NvidiaGsp.Gsp.TransportReceive
import NvidiaGsp.Gsp.TransportRuns
import NvidiaGsp.Gsp.Exchange
import NvidiaGsp.Gsp.ExchangeSpec
import NvidiaGsp.Gsp.ExchangeRuns
import NvidiaGsp.Lib.Memory
import NvidiaGsp.Gsp.Producer
import NvidiaGsp.Gsp.ProducerInv
import NvidiaGsp.Gsp.Delivery
import NvidiaGsp.Gsp.DeliveryRuns
import NvidiaGsp.Gsp.DeliveryLimit
import NvidiaGsp.Lib.Radix
import NvidiaGsp.Vm.Page
import NvidiaGsp.Vm.Tlb
import NvidiaGsp.Vm.Owner
import NvidiaGsp.Vm.OwnerSpec
import NvidiaGsp.Vm.OwnerTrace
import NvidiaGsp.Vm.Tree
import NvidiaGsp.Vm.Walk
import NvidiaGsp.Vm.Shape
import NvidiaGsp.Vm.Books
import NvidiaGsp.Vm.Refines
import NvidiaGsp.Vm.Accounts
import NvidiaGsp.Display.Context
import NvidiaGsp.Display.Table
import NvidiaGsp.Display.TableInv
import NvidiaGsp.Display.TableSpec
import NvidiaGsp.Display.TableCopy
import NvidiaGsp.Display.TableLookup
import NvidiaGsp.Display.TableRuns
import NvidiaGsp.Display.SorAssignment
import NvidiaGsp.Display.SorAssignmentSpec
import NvidiaGsp.Display.NotifierInv
import NvidiaGsp.Display.NotifierRuns
import NvidiaGsp.Display.HdmiDsc
import NvidiaGsp.Display.HdmiDscSpec
import NvidiaGsp.Display.HdmiDscScan
import NvidiaGsp.Display.HdmiDscRuns
import NvidiaGsp.Display.AuxEdid
import NvidiaGsp.Display.AuxEdidSpec
import NvidiaGsp.Display.AuxEeprom
import NvidiaGsp.Mst.Messages
import NvidiaGsp.Mst.Builder
import NvidiaGsp.Mst.BuilderSpec
import NvidiaGsp.Mst.BuilderSteps
import NvidiaGsp.Mst.BuilderAnswers
import NvidiaGsp.Mst.BuilderRuns
import NvidiaGsp.Display.Push
import NvidiaGsp.Display.PushRuns
import NvidiaGsp.Lib.Blocks
import NvidiaGsp.Fifo.PushSpec
import NvidiaGsp.Fifo.PushInv
import NvidiaGsp.Fifo.PushRuns
import NvidiaGsp.Mst.Link
import NvidiaGsp.Mst.Removal
import NvidiaGsp.Mst.PlanQuota
import NvidiaGsp.Mst.PlanExact
import NvidiaGsp.Lib.Crc
import NvidiaGsp.Mst.Wire
import NvidiaGsp.Mst.WireCrc
import NvidiaGsp.Mst.WireSpec
import NvidiaGsp.Mst.WireRuns
import NvidiaGsp.Lib.Extents
import NvidiaGsp.Lib.Moves
import NvidiaGsp.Lib.Unions
import NvidiaGsp.Lib.Chains
import NvidiaGsp.Vram.HeapSpec
import NvidiaGsp.Vram.HeapRuns
import NvidiaGsp.Render.CacheSpec
import NvidiaGsp.Render.CacheRuns
import NvidiaGsp.Sched.Turns
import NvidiaGsp.Sched.TurnsSpec
import NvidiaGsp.Sched.TurnsRuns
import NvidiaGsp.Lib.Threads
import NvidiaGsp.Irq.Gate
import NvidiaGsp.Irq.GateSpec
import NvidiaGsp.Irq.GateRuns
import NvidiaGsp.Irq.Messages
import NvidiaGsp.Mst.Sideband
import NvidiaGsp.Vm.Room
import NvidiaGsp.Vm.RangeRuns
import NvidiaGsp.Virtual.Wire
import NvidiaGsp.Virtual.Mapping
import NvidiaGsp.Virtual.WireChecked
import NvidiaGsp.Virtual.WireSpec
import NvidiaGsp.Virtual.Range
import NvidiaGsp.Virtual.RangeSpec
import NvidiaGsp.Mst.Request
import NvidiaGsp.Mst.LinkWork
import NvidiaGsp.Lib.Ladder
import NvidiaGsp.Mst.LinkSteps
import NvidiaGsp.Mst.LinkSpec
import NvidiaGsp.Mst.Restore
import NvidiaGsp.Mst.RestoreSteps
import NvidiaGsp.Mst.RestoreSpec
import NvidiaGsp.Mst.TransactionSound
import NvidiaGsp.Mst.LinkRuns
import NvidiaGsp.Mst.RestoreRuns
import NvidiaGsp.Lib.Parse
import NvidiaGsp.Firmware.Container
import NvidiaGsp.Firmware.ContainerRules
import NvidiaGsp.Firmware.Admission
import NvidiaGsp.Rom.Fwsec
import NvidiaGsp.Rom.FwsecSpec
import NvidiaGsp.Rom.Catalog
import NvidiaGsp.Rom.Tables
import NvidiaGsp.Rom.TablesSpec
import NvidiaGsp.Rom.Vbios
import NvidiaGsp.Rom.ImagesSpec
import NvidiaGsp.Rom.VbiosSpec
import NvidiaGsp.Rom.Selected
import NvidiaGsp.Display.Notifier
import NvidiaGsp.Power.Policy
import NvidiaGsp.Power.Owner
import NvidiaGsp.Power.OwnerInv
import NvidiaGsp.Power.PollSpec
import NvidiaGsp.Power.OwnerRuns
import NvidiaGsp.Power.Drain
import NvidiaGsp.Falcon.Device
import NvidiaGsp.Falcon.Load
import NvidiaGsp.Falcon.Reset
import NvidiaGsp.Falcon.Hs
import NvidiaGsp.Falcon.Upload
import NvidiaGsp.Falcon.HsSpec
import NvidiaGsp.Falcon.Run
import NvidiaGsp.Falcon.ResetSpec
import NvidiaGsp.Falcon.RunSpec
import NvidiaGsp.Falcon.Launch
import NvidiaGsp.Vram.Pramin
import NvidiaGsp.Vram.PraminSpec
import NvidiaGsp.Vram.PraminRuns
import NvidiaGsp.Vram.Inventory
import NvidiaGsp.Vram.Retained
import NvidiaGsp.Vram.RetainedSpec
import NvidiaGsp.FirstBoot.Layout
import NvidiaGsp.FirstBoot.LayoutSpec
import NvidiaGsp.Lib.Words
import NvidiaGsp.FirstBoot.Radix
import NvidiaGsp.FirstBoot.RadixSpec
import NvidiaGsp.FirstBoot.Wpr
import NvidiaGsp.Lib.Rounding
import NvidiaGsp.Surface.Layout
import NvidiaGsp.Surface.LayoutSpec
import NvidiaGsp.Bar1.Walk
import NvidiaGsp.Bar1.WalkSpec
import NvidiaGsp.Bar1.Capture
import NvidiaGsp.Bar1.CaptureSpec
import NvidiaGsp.Mst.BuilderGraph
import NvidiaGsp.Mst.CarrierRuns
