import NewOrbit.Shop.Consistency
import NewOrbit.Shop.Redelivery
import NewOrbit.Shop.Create
import NewOrbit.Shop.Publish
import NewOrbit.Rabbit.Poison
import NewOrbit.Rabbit.Audit
import NewOrbit.Rabbit.Acks
import NewOrbit.Rabbit.Replies
import NewOrbit.Rabbit.Ready
import NewOrbit.Rabbit.PocoFrames
import NewOrbit.Rabbit.Elapsed
import NewOrbit.Rabbit.CurrentTime
import NewOrbit.Displayer.Percentiles
import NewOrbit.Displayer.Responses
import NewOrbit.Bonds.Verdict
import NewOrbit.Bonds.Startup
import NewOrbit.Bonds.Watch
import NewOrbit.Bonds.Isolation
import NewOrbit.Bonds.Reimport
import NewOrbit.Bonds.Check
import NewOrbit.Bonds.Faithful
import NewOrbit.Streamer.Registry
import NewOrbit.LogServer.Paging
import NewOrbit.Streamer.Sum
import NewOrbit.Streamer.Connections
import NewOrbit.Shop.CompositeRead
import NewOrbit.Bonds.Filter
import NewOrbit.Displayer.Search
import NewOrbit.Displayer.Edits
import NewOrbit.Contacts.Edit
import NewOrbit.Amqp.Stream
import NewOrbit.Amqp.Publish
import NewOrbit.Streamer.Answers
import NewOrbit.Websocket.Sending
import NewOrbit.Websocket.Handshake
