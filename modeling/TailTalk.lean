import TailTalk.Adsp.Attention
import TailTalk.Atp.Integrity
import TailTalk.Atp.Foreign
import TailTalk.Atp.Reordering
import TailTalk.Atp.Forgetting
import TailTalk.Stack.Defence
import TailTalk.Adsp.Flow
import TailTalk.Adsp.Quiet
import TailTalk.Afp.Confinement
import TailTalk.Afp.Durability
import TailTalk.Afp.Writes
import TailTalk.Afp.Locks
import TailTalk.Afp.SetParms
import TailTalk.Afp.Listing
import TailTalk.Afp.Discovery
import TailTalk.Asp.Ownership
import TailTalk.Host.Acquisition
import TailTalk.LaserWriter.Boundaries
import TailTalk.Pap.Discipline
import TailTalk.Pap.Printing
import TailTalk.Pap.ReverseChannel
import TailTalk.Printer.Order
import TailTalk.Printer.Timers
import TailTalk.Proto.Framing
import TailTalk.TashTalk.Codec
import TailTalk.Hfs.Forks
import TailTalk.LaserWriter.Replies
import TailTalk.StyleWriter.Answers
import TailTalk.StyleWriter.Filter
import TailTalk.StyleWriter.Rename
import TailTalk.ImageWriter.Stream
import TailTalk.StyleWriter.Blocks
import TailTalk.Routes.Configured
import TailTalk.Host.NextHop
import TailTalk.Packets.NbpMatch
import TailTalk.Stack.Probing
import TailTalk.LocalTalk.Bursts
import TailTalk.InkTalk.Dma
import TailTalk.InkTalk.Settings
import TailTalk.Host.DynamicSockets
import TailTalk.Host.Lookups
import TailTalk.StyleWriter.Bands
import TailTalk.Net.Window
import TailTalk.Host.AdspReads
import TailTalk.Host.AdspWrites
import TailTalk.Net.Reuse
import TailTalk.LocalTalk.Csma
import TailTalk.Stack.Delivery
