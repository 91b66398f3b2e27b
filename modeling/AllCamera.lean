import AllCamera.Stream.FrameOrganizer.Loss
import AllCamera.Stream.PsDemux.Routing
import AllCamera.Stream.PsDemux.StreamMap
import AllCamera.Stream.PsDemux.H264
import AllCamera.Stream.PsDemux.H265
import AllCamera.Stream.DataQueue.Counter
import AllCamera.Stream.MediaExchange.Affinity
import AllCamera.Stream.MediaExchange.Ownership
import AllCamera.Stream.MediaExchange.SetKind
import AllCamera.Stream.RtspPacket.Framing
import AllCamera.Stream.MpegPsDec.Bounds
import AllCamera.Stream.MpegPsDec.AudioRoundTrip
import AllCamera.Stream.PacketList.Order
import AllCamera.Stream.TcpSend.Control
import AllCamera.Stream.RtpTcpConnect.Full
import AllCamera.Stream.RtpTcpConnect.Padding
import AllCamera.Stream.Rtp2Ps.AnnexB
import AllCamera.Stream.RtmpAmf.Image
import AllCamera.Stream.RtmpPushSession.Receive
import AllCamera.Stream.RtmpPushSession.Send
import AllCamera.Stream.RtspPacket.RequestRoundTrip
import AllCamera.Common.MediaLink.Unsigned
import AllCamera.Stream.RtmpPushSession.HandShake.Receives
import AllCamera.Record.MediaProcessor.DevIndex
import AllCamera.Record.MediaProcessor.Owner
import AllCamera.Record.MediaProcessor.Retry
import AllCamera.Stream.BusinessManager.Flux
import AllCamera.Stream.MediaPort.Pairs
import AllCamera.Stream.SessionFactory.References
import AllCamera.Record.RecvStream.TimeTick
import AllCamera.Record.RecordIndex.Clusters
import AllCamera.Record.IndexList.Updates
import AllCamera.Record.IndexList.Over
import AllCamera.Record.IndexList.Flux
import AllCamera.Record.IndexResend.Departures
import AllCamera.Record.MbBuffer.Classes
import AllCamera.Record.RtMediaBuffer.Counters
import AllCamera.Record.DiskManager.Load
import AllCamera.Common.Timer
import AllCamera.Common.Base64.RoundTrip
import AllCamera.Common.Base64.Places
import AllCamera.Record.RecvStream.Tmpfs
import AllCamera.Record.DiskList.Refresh
import AllCamera.Record.FileEgress.SwitchRuns
import AllCamera.Common.Config.Set
import AllCamera.Common.Config.Safe
import AllCamera.Stream.RtpPacker.Audio
import AllCamera.Stream.EsRtpEncap.Units
import AllCamera.Stream.MpegPsEnc.Cursor
import AllCamera.Stream.MpegPsEnc.Fields
import AllCamera.Stream.RtcpPacket
import AllCamera.Stream.RtmpAmf.Reads
import AllCamera.Stream.RtspSetup
import AllCamera.Stream.RtspPacket.Contained
import AllCamera.Stream.StartCode.Reads
import AllCamera.Stream.MpegPsEnc.Crc
import AllCamera.Record.RecordIndex.Digest
import AllCamera.Record.DiskManager.Select
import AllCamera.Record.DiskManager.FullAlarm
import AllCamera.Record.RecvStream.Owners
import AllCamera.Record.FileEgress.Passes
import AllCamera.Record.FileEgress.Attempts
import AllCamera.Record.FileEgress.Close
import AllCamera.Stream.Sdp.LastLine
import AllCamera.Vms.ClientLink.Delivery
