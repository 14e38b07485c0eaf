import AnyKvm.SlotOwnership
import AnyKvm.RoomRegistry
import AnyKvm.FrameRate
import AnyKvm.SignalWedge
import AnyKvm.HeldKeys
import AnyKvm.Inbound
import AnyKvm.OfferPlacement
import AnyKvm.IgnoredAnswer
import AnyKvm.RoomRemoval
import AnyKvm.CurrentSpeaker
import AnyKvm.OfferFreshness
import AnyKvm.RoomIsolation
import AnyKvm.ResponseMatching
import AnyKvm.AllocationLifetime
import AnyKvm.PermissionLifetime
import AnyKvm.Decodability
import AnyKvm.RelayFraming
import AnyKvm.AttrCodec
import AnyKvm.MessageBoundary
import AnyKvm.HandshakePanics
import AnyKvm.PlanarImage
import AnyKvm.ConversionsAgree
import AnyKvm.FrameDelivery
import AnyKvm.BackPressure
import AnyKvm.PermissionTraffic
import AnyKvm.MessageIntegrity
import AnyKvm.QuickActions
import AnyKvm.Negotiation
import AnyKvm.MediaClock
import AnyKvm.AgentListing
import AnyKvm.Gathering
import AnyKvm.LockRefinement
import AnyKvm.Sampling
import AnyKvm.EscHtml
import AnyKvm.Sha1
import AnyKvm.Md5
import AnyKvm.LongTermKey
import AnyKvm.WalkTotal
import AnyKvm.QualitySteps
import AnyKvm.AudioCapture
import AnyKvm.TypedText
import AnyKvm.SineTable
import AnyKvm.Capture
import AnyKvm.PacketRoundTrip
import AnyKvm.NalTypes
import AnyKvm.NackAnswers
import AnyKvm.CheckAgreement
