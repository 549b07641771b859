import DsdNexus.Lib.Blocks
import DsdNexus.Util.Reverse
import DsdNexus.Vfs.File
import DsdNexus.Vfs.Transform
import DsdNexus.Vfs.Read
import DsdNexus.Vfs.Image
import DsdNexus.Vfs.RandomAccess
import DsdNexus.Lib.Scheduled
import DsdNexus.Vfs.Pipeline
import DsdNexus.Vfs.Threaded
import DsdNexus.Vfs.AudioRoom
import DsdNexus.Vfs.LiveTag
import DsdNexus.Sacd.AreaFrames
import DsdNexus.Sacd.AreaContained
import DsdNexus.Sacd.AreaTextItems
import DsdNexus.Sacd.AreaTocRead
import DsdNexus.Sacd.AudioSector
import DsdNexus.Sacd.Charset
import DsdNexus.Sacd.DstReader
import DsdNexus.Sacd.DstCache
import DsdNexus.Lib.Transition
import DsdNexus.Util.Tpool
import DsdNexus.Util.TpoolOrder
import DsdNexus.Vfs.Handshake
import DsdNexus.Vfs.SeekExchange
import DsdNexus.Vfs.Id3Cache
import DsdNexus.Vfs.Id3Overlay
import DsdNexus.Vfs.Id3Unsaved
import DsdNexus.Vfs.Id3RoundTrip
import DsdNexus.Lib.Separator
import DsdNexus.Util.Cstring
import DsdNexus.Vfs.Namespace
import DsdNexus.Vfs.NamespaceConsistent
import DsdNexus.Lib.Patch
import DsdNexus.Overlay.Write
import DsdNexus.Overlay.WritePatch
import DsdNexus.Overlay.Mounts
import DsdNexus.Overlay.MountsLive
import DsdNexus.Lib.Longest
import DsdNexus.Overlay.Listing
import DsdNexus.Overlay.ListingResolves
import DsdNexus.Util.GetBits
import DsdNexus.Dst.Decoder
import DsdNexus.Dst.DecoderMemory
import DsdNexus.Dst.DecodedLength
import DsdNexus.Dst.DecoderBatch
import DsdNexus.Dst.BatchIsolated
import DsdNexus.Dst.BatchProgress
import DsdNexus.Lib.Slice
import DsdNexus.Lib.ByteFile
import DsdNexus.Lib.Endian
import DsdNexus.Lib.Program
import DsdNexus.Lib.FileProgram
import DsdNexus.Util.Words
import DsdNexus.Dsdiff.Types
import DsdNexus.Dsdiff.Chunks
import DsdNexus.Dsdiff.Handle
import DsdNexus.Dsdiff.ChunkBytes
import DsdNexus.Dsdiff.Compression
import DsdNexus.Lib.Utf8
import DsdNexus.Util.CleanName
import DsdNexus.Dsdiff.ChannelCodec
import DsdNexus.Dsdiff.MetadataBytes
import DsdNexus.Dsdiff.Layout
import DsdNexus.Dsdiff.Parse
import DsdNexus.Dsdiff.Onward
import DsdNexus.Dsdiff.Skips
import DsdNexus.Dsdiff.Terminates
import DsdNexus.Dsdiff.Turns
import DsdNexus.Dsdiff.Opened
import DsdNexus.Dsdiff.DsdAudio
import DsdNexus.Dsdiff.DstIndex
import DsdNexus.Dsdiff.ReadFits
import DsdNexus.Dsdiff.DstAccounting
import DsdNexus.Dsf.Chunks
import DsdNexus.Dsf.Handle
import DsdNexus.Abandoned
import DsdNexus.Lib.Reads
import DsdNexus.Lib.Ring
import DsdNexus.Dsdpipe.ReaderThread
import DsdNexus.Dsdpipe.ReaderProgress
import DsdNexus.Dsdpipe.ReaderDelivers
import DsdNexus.Lib.Triple
import DsdNexus.Dsdpipe.Pipeline
import DsdNexus.Dsdpipe.PipelineStatus
import DsdNexus.Dsdpipe.PipelineProtocol
import DsdNexus.Dsdpipe.PipelineCalls
import DsdNexus.Dsdpipe.PipelineHistory
import DsdNexus.Dsdpipe.PipelineDelivers
import DsdNexus.Ps3drive.Sac
import DsdNexus.Ps3drive.SacVerdict
import DsdNexus.Lib.Stripes
import DsdNexus.Sacd.DsdReader
import DsdNexus.Sacd.PacketCopies
import DsdNexus.Sacd.FrameRoom
import DsdNexus.Sacd.PbDecode
import DsdNexus.Sacd.InputNetwork
import DsdNexus.Sacd.Context
import DsdNexus.Sacd.SoundData
import DsdNexus.Sacd.ContextInit
import DsdNexus.Sacd.DstSeek
import DsdNexus.Vfs.Failing
import DsdNexus.Overlay.FlushTarget
import DsdNexus.Overlay.ScanEntries
import DsdNexus.Overlay.Hidden
import DsdNexus.Dsdpipe.CueSheet
import DsdNexus.Dsdpipe.CueDescribes
import DsdNexus.Dsdpipe.PcmBatch
import DsdNexus.Dsdpipe.PcmUses
import DsdNexus.Dsdpipe.BufferRelease
import DsdNexus.Dsf.Layout
import DsdNexus.Dsf.Audio
import DsdNexus.Dsf.Written
import DsdNexus.Dsf.Stream
import DsdNexus.Dsf.Opened
import DsdNexus.Dsf.EndOfAudio
import DsdNexus.Dsf.AudioSeek
import DsdNexus.Dsf.FailingWrites
import DsdNexus.Dsdiff.Accepted
import DsdNexus.Util.Tree
import DsdNexus.Dsdpipe.MetadataTags
import DsdNexus.Dsdpipe.TagsFiniteMap
import DsdNexus.Dsdpipe.TagsCalls
import DsdNexus.Dsdpipe.SourceDsdiff
import DsdNexus.Dsdpipe.TrackTable
import DsdNexus.Dsdpipe.DsdiffFrames
import DsdNexus.Dsdpipe.TrackCovered
import DsdNexus.Dsdpipe.PcmHeaders
import DsdNexus.Dsdpipe.Metadata
import DsdNexus.Dsdpipe.SinkDsf
import DsdNexus.Lib.Chain
import DsdNexus.Util.LinkedList
import DsdNexus.Dsdiff.MarkerSort
import DsdNexus.Dsdiff.Markers
import DsdNexus.Sacd.MasterToc
import DsdNexus.Sacd.MasterTexts
import DsdNexus.Dsdpipe.TrackSelect
import DsdNexus.Dsdpipe.TracksSelected
import DsdNexus.Sacd.InputContract
import DsdNexus.Lib.Grid
import DsdNexus.Dsf.Edited
import DsdNexus.Dsdiff.ParseBack
import DsdNexus.Dsdiff.Reopened
import DsdNexus.Dsdiff.RoundTrip
import DsdNexus.Dsdiff.SameFile
